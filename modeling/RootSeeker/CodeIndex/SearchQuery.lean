import RootSeeker.Core.Patterns
import RootSeeker.Python.Repr
import RootSeeker.Python.Words

/-!
# Search queries

The query for a symptom: a path in it, else its identifiers, else the words of
its first line as a phrase, else the whole line as a phrase; then the filters
that keep generated files out.
-/

namespace RootSeeker.CodeIndex

open Python Patterns

def searchStopwords : List PyStr :=
  [py "a", py "an", py "and", py "at", py "by", py "for", py "from", py "high", py "in",
    py "into", py "is", py "of", py "on", py "or", py "prod", py "production", py "ratio",
    py "the", py "to", py "with", py "error", py "errors", py "failed", py "failure",
    py "exception", py "null", py "undefined", py "service", py "api", py "request",
    py "response"]

/-- `ZOEKT_NOISE_FILTERS`. -/
def noiseFilters : List PyStr :=
  [py "-file:\\.min\\.js$", py "-file:\\.min\\.css$", py "-file:\\.map$",
    py "-file:chunk-[a-f0-9]+\\.js$", py "-file:messages_.*\\.properties$",
    py "-file:fuzzdb/", py "-file:node_modules/", py "-file:vendor/", py "-file:\\.pb\\.go$"]

/-! ## Patterns -/

def isUpper (c : CodePoint) : Bool :=
  0x41 ≤ c.val && c.val ≤ 0x5A

def isLower (c : CodePoint) : Bool :=
  0x61 ≤ c.val && c.val ≤ 0x7A

def isAlnum (c : CodePoint) : Bool :=
  isUpper c || isLower c || isDigit c

/-- `[A-Za-z0-9_]`. -/
def isPlainWordChar (c : CodePoint) : Bool :=
  isAlnum c || c = CodePoint.ofChar '_'

/-- `[A-Za-z_]`. -/
def isNameStart (c : CodePoint) : Bool :=
  isUpper c || isLower c || c = CodePoint.ofChar '_'

/-- A word character, a dash, a dot or a slash. -/
def isPathChar (c : CodePoint) : Bool :=
  isPlainWordChar c || c ∈ py "-./"

/-- Word characters and digits outside ASCII. -/
structure CharTables where
  wordChar : CodePoint → Bool
  digit : CodePoint → Bool

/-- `[A-Z][A-Za-z0-9]+`. -/
def hump : Pattern CodePoint :=
  sequence [one isUpper, atLeastOne (one isAlnum)]

/-- Three characters of a name or more. -/
def longName : Pattern CodePoint :=
  sequence [one isNameStart, one isPlainWordChar, one isPlainWordChar, many (one isPlainWordChar)]

/-- `_IDENTIFIER_RE`. -/
def identifierPattern (tables : CharTables) : Pattern CodePoint :=
  sequence [boundary (isWordChar tables.wordChar), choice [sequence [hump, atLeastOne hump],
      sequence [one isLower, many (one fun c => isLower c || isDigit c), atLeastOne hump],
      sequence [one isNameStart, many (one isPlainWordChar), literally (py "_"),
        atLeastOne (one isPlainWordChar)],
      sequence [longName, atLeastOne (follow (literally (py ".")) longName)]],
    boundary (isWordChar tables.wordChar)]

def sourceExtensions : List PyStr :=
  [py "java", py "kt", py "py", py "go", py "ts", py "tsx", py "js", py "jsx", py "cs", py "rb",
    py "php", py "scala", py "rs", py "cpp", py "c", py "h"]

/-- `_PATH_RE`. -/
def pathPattern (tables : CharTables) : Pattern CodePoint :=
  sequence [group (sequence [atLeastOne (one isPathChar), literally (py "."),
      choice (sourceExtensions.map literally)]),
    optional (sequence [literally (py ":"), atLeastOne (one fun c => isDigit c || tables.digit c)])]

/-! ## The query -/

variable (tables : CharTables) (std : Stdlib)

def extractCodeIdentifiers (text : PyStr) : List PyStr :=
  (findAll (identifierPattern tables) text).foldl
    (fun found token =>
      if lower std token ∈ searchStopwords ∨ token ∈ found then found else found ++ [token]) []

/-- The order of `sorted` with the key `(-len(item), item)`. -/
def MoreSpecific (item other : PyStr) : Prop :=
  other.length < item.length ∨ (item.length = other.length ∧ item ≤ other)

instance : DecidableRel MoreSpecific := fun _ _ => inferInstanceAs (Decidable (_ ∨ _))

/-- The words of a line that are no stop words. -/
def contentWords (line : PyStr) : List PyStr :=
  (runs isPlainWordChar line).filter fun word =>
    lower std word ∉ searchStopwords ∧ 3 ≤ word.length

def withFilters (query : PyStr) (includeNoiseFilters : Bool) : PyStr :=
  if includeNoiseFilters then
    strip (query ++ spaceChar :: join [spaceChar] noiseFilters)
  else query

def quotedPhrase (phrase : PyStr) : PyStr :=
  doubleQuote :: (phrase ++ [doubleQuote])

/-- `text.splitlines()[0].strip()`. -/
def headLine (symptom : PyStr) : PyStr :=
  strip (firstLine (strip symptom))

/-- The path in a symptom. -/
def pathIn (symptom : PyStr) : Option PyStr :=
  (searchFrom (pathPattern tables) none (strip symptom)).map fun groups => groups.headD []

def buildZoektSearchQuery (symptom : PyStr) (includeNoiseFilters : Bool) : PyStr :=
  if strip symptom = [] then []
  else
    match pathIn tables symptom with
    | some path => withFilters (py "file:" ++ path) includeNoiseFilters
    | none =>
      let identifiers := extractCodeIdentifiers tables std (headLine symptom)
      let words := contentWords std (headLine symptom)
      let compact := squeeze (headLine symptom)
      if identifiers ≠ [] then
        withFilters (join [spaceChar] ((identifiers.insertionSort MoreSpecific).take 4))
          includeNoiseFilters
      else if 2 ≤ words.length then
        withFilters (quotedPhrase (join [spaceChar] (words.take 8))) includeNoiseFilters
      else
        match words with
        | word :: _ => withFilters word includeNoiseFilters
        | [] =>
          if compact = [] then []
          else withFilters (quotedPhrase compact) includeNoiseFilters

/-! ## The characters of paths and identifiers -/

variable {tables std}

variable {c : CodePoint}

theorem isPathChar_of_isPlainWordChar (hc : isPlainWordChar c = true) : isPathChar c = true := by
  rw [isPathChar, hc, Bool.true_or]

theorem isPlainWordChar_of_isAlnum (hc : isAlnum c = true) : isPlainWordChar c = true := by
  rw [isPlainWordChar, hc, Bool.true_or]

theorem isAlnum_of_isUpper (hc : isUpper c = true) : isAlnum c = true := by
  rw [isAlnum, hc, Bool.true_or, Bool.true_or]

theorem isAlnum_of_isLower (hc : isLower c = true) : isAlnum c = true := by
  rw [isAlnum, hc, Bool.or_true, Bool.true_or]

theorem isAlnum_of_isLower_or_isDigit (hc : (isLower c || isDigit c) = true) :
    isAlnum c = true := by
  rw [isAlnum, Bool.or_assoc, hc, Bool.or_true]

theorem isPlainWordChar_of_isNameStart (hc : isNameStart c = true) : isPlainWordChar c = true := by
  rw [isNameStart, Bool.or_eq_true] at hc
  rw [isPlainWordChar, isAlnum, Bool.or_eq_true]
  exact hc.imp (fun hletter => by rw [hletter, Bool.true_or]) id

/-- Characters that paths and identifiers consist of. -/
def IsQueryChar (c : CodePoint) : Prop :=
  isPathChar c = true

theorem readsOnly_one {accepts : CodePoint → Bool}
    (haccepts : ∀ c, accepts c = true → isPlainWordChar c = true) :
    ReadsOnly IsQueryChar (one accepts) :=
  ReadsOnly.one fun c hc => isPathChar_of_isPlainWordChar (haccepts c hc)

theorem readsOnly_wordChar : ReadsOnly IsQueryChar (one isPlainWordChar) :=
  readsOnly_one fun _ hc => hc

theorem readsOnly_nameStart : ReadsOnly IsQueryChar (one isNameStart) :=
  readsOnly_one fun _ hc => isPlainWordChar_of_isNameStart hc

theorem readsOnly_sequence {patterns : List (Pattern CodePoint)}
    (hall : patterns.Forall (ReadsOnly IsQueryChar)) : ReadsOnly IsQueryChar (sequence patterns) :=
  ReadsOnly.sequence (List.forall_iff_forall_mem.mp hall)

theorem readsOnly_hump : ReadsOnly IsQueryChar hump :=
  readsOnly_sequence
    ⟨readsOnly_one fun _ hc => isPlainWordChar_of_isAlnum (isAlnum_of_isUpper hc),
      (readsOnly_one fun _ hc => isPlainWordChar_of_isAlnum hc).atLeastOne⟩

theorem readsOnly_longName : ReadsOnly IsQueryChar longName :=
  readsOnly_sequence
    ⟨readsOnly_nameStart, readsOnly_wordChar, readsOnly_wordChar, readsOnly_wordChar.many⟩

theorem readsOnly_dot : ReadsOnly IsQueryChar (literally (py ".")) :=
  ReadsOnly.literally (List.all_eq_true.mp (by decide : (py ".").all isPathChar = true))

theorem readsOnly_identifierPattern : ReadsOnly IsQueryChar (identifierPattern tables) := by
  have hsnake : ReadsOnly IsQueryChar (literally (py "_")) :=
    ReadsOnly.literally (List.all_eq_true.mp (by decide : (py "_").all isPathChar = true))
  have hlower : ReadsOnly IsQueryChar (one isLower) :=
    readsOnly_one fun _ hc => isPlainWordChar_of_isAlnum (isAlnum_of_isLower hc)
  have hlowers : ReadsOnly IsQueryChar (one fun c => isLower c || isDigit c) :=
    readsOnly_one fun _ hc => isPlainWordChar_of_isAlnum (isAlnum_of_isLower_or_isDigit hc)
  refine readsOnly_sequence ⟨ReadsOnly.boundary _, ReadsOnly.choice ?_, ReadsOnly.boundary _⟩
  rw [← List.forall_iff_forall_mem]
  exact ⟨readsOnly_sequence ⟨readsOnly_hump, readsOnly_hump.atLeastOne⟩,
    readsOnly_sequence ⟨hlower, hlowers.many, readsOnly_hump.atLeastOne⟩,
    readsOnly_sequence ⟨readsOnly_nameStart, readsOnly_wordChar.many, hsnake,
      readsOnly_wordChar.atLeastOne⟩,
    readsOnly_sequence ⟨readsOnly_longName, (readsOnly_dot.follow readsOnly_longName).atLeastOne⟩⟩

theorem advances_sequence {first : Pattern CodePoint} {rest : List (Pattern CodePoint)}
    (hfirst : Advances first) (hrest : rest.Forall (ReadsOnly IsQueryChar)) :
    Advances (sequence (first :: rest)) :=
  Advances.follow_left hfirst (readsOnly_sequence hrest)

/-- No identifier is empty. -/
theorem advances_identifierPattern : Advances (identifierPattern tables) := by
  have hsnake : ReadsOnly IsQueryChar (literally (py "_")) :=
    ReadsOnly.literally (List.all_eq_true.mp (by decide : (py "_").all isPathChar = true))
  have hlowers : ReadsOnly IsQueryChar (one fun c => isLower c || isDigit c) :=
    readsOnly_one fun _ hc => isPlainWordChar_of_isAlnum (isAlnum_of_isLower_or_isDigit hc)
  have hhump : Advances hump :=
    advances_sequence (Advances.one _)
      (readsOnly_one fun _ hc => isPlainWordChar_of_isAlnum hc).atLeastOne
  have hname : Advances longName :=
    advances_sequence (Advances.one _)
      ⟨readsOnly_wordChar, readsOnly_wordChar, readsOnly_wordChar.many⟩
  refine Advances.follow_right (@ReadsOnly.boundary _ IsQueryChar _)
    (advances_sequence (Advances.choice ?_) (ReadsOnly.boundary _))
  rw [← List.forall_iff_forall_mem]
  exact ⟨advances_sequence hhump readsOnly_hump.atLeastOne,
    advances_sequence (Advances.one _) ⟨hlowers.many, readsOnly_hump.atLeastOne⟩,
    advances_sequence (Advances.one _)
      ⟨readsOnly_wordChar.many, hsnake, readsOnly_wordChar.atLeastOne⟩,
    advances_sequence hname (readsOnly_dot.follow readsOnly_longName).atLeastOne⟩

theorem groupsOnly_pathPattern : GroupsOnly IsQueryChar (pathPattern tables) := by
  have hextension : ReadsOnly IsQueryChar (choice (sourceExtensions.map literally)) := by
    apply ReadsOnly.choice
    intro pattern hpattern
    obtain ⟨extension, hmem, rfl⟩ := List.mem_map.mp hpattern
    have hall : (sourceExtensions.all fun extension => extension.all isPathChar) = true := by
      decide
    exact ReadsOnly.literally (List.all_eq_true.mp (List.all_eq_true.mp hall extension hmem))
  have hpath : ReadsOnly IsQueryChar (sequence [atLeastOne (one isPathChar), literally (py "."),
      choice (sourceExtensions.map literally)]) :=
    readsOnly_sequence ⟨(ReadsOnly.one fun _ hc => hc).atLeastOne, readsOnly_dot, hextension⟩
  apply GroupsOnly.sequence
  rw [← List.forall_iff_forall_mem]
  refine ⟨hpath.group.groupsOnly, GroupsOnly.optional (GroupsOnly.sequence ?_)⟩
  rw [← List.forall_iff_forall_mem]
  exact ⟨GroupsOnly.literally _, (GroupsOnly.one _).atLeastOne⟩

theorem isQueryChar_of_pathIn {symptom path : PyStr} (hpath : pathIn tables symptom = some path) :
    ∀ c ∈ path, isPathChar c = true := by
  obtain ⟨groups, hfound, rfl⟩ := Option.map_eq_some_iff.mp hpath
  have hall := groupsOnly_pathPattern.groups_searchFrom hfound
  cases groups with
  | nil => exact fun c hc => absurd hc List.not_mem_nil
  | cons found rest => exact hall found List.mem_cons_self

theorem mem_extractCodeIdentifiers {line token : PyStr}
    (htoken : token ∈ extractCodeIdentifiers tables std line) :
    token ≠ [] ∧ ∀ c ∈ token, isPathChar c = true := by
  have hfound : token ∈ findAll (identifierPattern tables) line := by
    rw [extractCodeIdentifiers] at htoken
    refine List.foldlRecOn (motive := fun found => token ∈ found →
      token ∈ findAll (identifierPattern tables) line) _ _ ?_ ?_ htoken
    · exact fun hmem => absurd hmem List.not_mem_nil
    · intro found hkept other hother hmem
      split at hmem
      · exact hkept hmem
      · exact (List.mem_append.mp hmem).elim hkept fun heq => List.mem_singleton.mp heq ▸ hother
  exact ⟨advances_identifierPattern.ne_nil_of_mem_findAllFrom hfound,
    readsOnly_identifierPattern.mem_findAllFrom hfound⟩

end RootSeeker.CodeIndex
