import RootSeeker.Core.Framing
import RootSeeker.Python.Json

/-!
# Web addresses

What `urlparse` makes of an address, what it reads out of the part with the
host, and `urlunparse`.  An address that was parsed can be put together again
with another user, host and port, and parsing gives these back with the rest.
-/

namespace RootSeeker.Python

/-- The parts that `urlparse` returns. -/
structure Url where
  scheme : PyStr
  netloc : PyStr
  path : PyStr
  params : PyStr
  query : PyStr
  fragment : PyStr
  deriving DecidableEq

/-- What the library looks up: whether the normal form of a character has one of
`/?#@:` in it, and whether brackets stand around an address in the part with the host. -/
structure UrlTables where
  expands : CodePoint → Bool
  bracketsAccepted : PyStr → Bool

def openBracket : CodePoint := CodePoint.ofChar '['
def closeBracket : CodePoint := CodePoint.ofChar ']'
def atSign : CodePoint := CodePoint.ofChar '@'
def numberSign : CodePoint := CodePoint.ofChar '#'
def questionMark : CodePoint := CodePoint.ofChar '?'
def semicolon : CodePoint := CodePoint.ofChar ';'
def slashChar : CodePoint := CodePoint.ofChar '/'

/-- The text before the first separator and the text after it. -/
def cutAt (separator : CodePoint) (text : PyStr) : PyStr × PyStr :=
  (text.takeWhile (· ≠ separator), (text.dropWhile (· ≠ separator)).tail)

def isControlOrSpace (c : CodePoint) : Bool :=
  c.val ≤ 0x20

/-- Tabs and line ends, which are taken out of an address. -/
def isLayoutChar (c : CodePoint) : Bool :=
  c.val = 0x09 || c.val = 0x0A || c.val = 0x0D

def isAsciiLetter (c : CodePoint) : Bool :=
  (0x41 ≤ c.val && c.val ≤ 0x5A) || (0x61 ≤ c.val && c.val ≤ 0x7A)

def isSchemeChar (c : CodePoint) : Bool :=
  isAsciiLetter c || isDigit c || c ∈ py "+-."

def splitScheme (std : Stdlib) (text : PyStr) : PyStr × PyStr :=
  let name := (cutAt colonChar text).1
  if colonChar ∈ text ∧ name.head?.any isAsciiLetter ∧ name.all isSchemeChar then
    (lower std name, (cutAt colonChar text).2)
  else ([], text)

/-- No character that ends the part with the host. -/
def inNetloc (c : CodePoint) : Bool :=
  c ≠ slashChar && c ≠ questionMark && c ≠ numberSign

def splitNetloc (text : PyStr) : PyStr × PyStr :=
  if text.take 2 = py "//" then
    ((text.drop 2).takeWhile inNetloc, (text.drop 2).dropWhile inNetloc)
  else ([], text)

def netlocAccepted (tables : UrlTables) (netloc : PyStr) : Bool :=
  (openBracket ∈ netloc ↔ closeBracket ∈ netloc) &&
    (openBracket ∉ netloc || tables.bracketsAccepted netloc) &&
    netloc.all fun c => isAscii c || !tables.expands c

/-- The schemes whose last path segment has parameters. -/
def usesParams : List PyStr :=
  [[], py "ftp", py "hdl", py "prospero", py "http", py "imap", py "https", py "shttp",
    py "rtsp", py "rtsps", py "rtspu", py "sip", py "sips", py "mms", py "sftp", py "tel"]

def splitParams (text : PyStr) : PyStr × PyStr :=
  let segment := cutAt semicolon (text.rtakeWhile (· ≠ slashChar))
  (text.rdropWhile (· ≠ slashChar) ++ segment.1, segment.2)

/-- A path and its parameters. -/
def joinParams (path params : PyStr) : PyStr :=
  if params = [] then path else path ++ semicolon :: params

/-- The parts after the netloc. -/
def splitRest (scheme netloc text : PyStr) : Url :=
  let unfragmented := (cutAt numberSign text).1
  let unqueried := (cutAt questionMark unfragmented).1
  let path := if scheme ∈ usesParams then splitParams unqueried else (unqueried, [])
  ⟨scheme, netloc, path.1, path.2, (cutAt questionMark unfragmented).2,
    (cutAt numberSign text).2⟩

/-- `urlparse`; nothing for a `ValueError`. -/
def urlparse (tables : UrlTables) (std : Stdlib) (text : PyStr) : Option Url :=
  let schemed := splitScheme std ((text.dropWhile isControlOrSpace).filter (!isLayoutChar ·))
  let located := splitNetloc schemed.2
  if netlocAccepted tables located.1 then some (splitRest schemed.1 located.1 located.2) else none

namespace Url

variable (std : Stdlib)

/-- The netloc after its last `@`. -/
def hostInfo (netloc : PyStr) : PyStr :=
  netloc.rtakeWhile (· ≠ atSign)

/-- The texts of the host and of the port. -/
def hostPort (netloc : PyStr) : PyStr × PyStr :=
  let info := hostInfo netloc
  if openBracket ∈ info then
    let (host, rest) := cutAt closeBracket (cutAt openBracket info).2
    (host, (cutAt colonChar rest).2)
  else cutAt colonChar info

/-- Lower case up to the zone, which follows a percent sign. -/
def lowerHost (host : PyStr) : PyStr :=
  lower std (host.takeWhile (· ≠ CodePoint.ofChar '%')) ++
    host.dropWhile (· ≠ CodePoint.ofChar '%')

/-- `parsed.hostname`, where `None` is the empty text. -/
def hostname (url : Url) : PyStr :=
  lowerHost std (hostPort url.netloc).1

/-- The value of decimal digits. -/
def readDecimal (digits : PyStr) : ℕ :=
  digits.foldl (fun value c => value * 10 + (c.val - 0x30)) 0

/-- `parsed.port`; nothing for a `ValueError`. -/
def port (url : Url) : Option (Option ℕ) :=
  let text := (hostPort url.netloc).2
  if text = [] then some none
  else if text.all isDigit ∧ readDecimal text ≤ 65535 then some (some (readDecimal text))
  else none

/-- `parsed.username` and `parsed.password`. -/
def userinfo (url : Url) : Option PyStr × Option PyStr :=
  if atSign ∈ url.netloc then
    let info := (url.netloc.rdropWhile (· ≠ atSign)).dropLast
    (some (cutAt colonChar info).1,
      if colonChar ∈ info then some (cutAt colonChar info).2 else none)
  else (none, none)

/-- `urlunparse` of an address with a netloc. -/
def unparse (url : Url) : PyStr :=
  let path := joinParams url.path url.params
  let rooted := if path = [] ∨ path.head? = some slashChar then path else slashChar :: path
  (if url.scheme = [] then [] else url.scheme ++ [colonChar]) ++ py "//" ++ url.netloc ++ rooted ++
    (if url.query = [] then [] else questionMark :: url.query) ++
    (if url.fragment = [] then [] else numberSign :: url.fragment)

end Url

/-! ## Cutting a text -/

theorem cutAt_append {separator : CodePoint} {left : PyStr} (hleft : separator ∉ left)
    (right : PyStr) : cutAt separator (left ++ separator :: right) = (left, right) := by
  have hkept : ∀ c ∈ left, decide (c ≠ separator) = true := by
    intro c hc
    rw [decide_eq_true_eq]
    exact fun heq => hleft (heq ▸ hc)
  rw [cutAt, Framing.takeWhile_append hkept (by simp), List.dropWhile_append_of_pos hkept,
    List.dropWhile_cons_of_neg (by simp), List.tail_cons]

variable {front text : PyStr} {inside : CodePoint → Bool}

theorem cutAt_of_not_mem {separator : CodePoint} (htext : separator ∉ text) :
    cutAt separator text = (text, []) := by
  have hkept : ∀ c ∈ text, decide (c ≠ separator) = true := by
    intro c hc
    rw [decide_eq_true_eq]
    exact fun heq => htext (heq ▸ hc)
  rw [cutAt, List.takeWhile_eq_self_iff.mpr hkept, List.dropWhile_eq_nil_iff.mpr hkept,
    List.tail_nil]

theorem not_mem_cutAt_fst (separator : CodePoint) (text : PyStr) :
    separator ∉ (cutAt separator text).1 := by
  intro hmem
  simpa using List.mem_takeWhile_imp hmem

theorem cutAt_fst_sublist (separator : CodePoint) (text : PyStr) :
    (cutAt separator text).1.Sublist text :=
  List.takeWhile_sublist _

theorem cutAt_snd_sublist (separator : CodePoint) (text : PyStr) :
    (cutAt separator text).2.Sublist text :=
  (List.tail_sublist _).trans (List.dropWhile_sublist _)

theorem rtakeWhile_append {last : PyStr} (hlast : ∀ c ∈ last, inside c = true)
    (hfront : ∀ c ∈ front.getLast?, inside c = false) :
    (front ++ last).rtakeWhile inside = last := by
  rw [List.rtakeWhile, List.reverse_append, Framing.takeWhile_append, List.reverse_reverse]
  · exact fun c hc => hlast c (List.mem_reverse.mp hc)
  · rwa [List.head?_reverse]

theorem rdropWhile_append_of_class {last : PyStr} (hlast : ∀ c ∈ last, inside c = true)
    (hfront : ∀ c ∈ front.getLast?, inside c = false) :
    (front ++ last).rdropWhile inside = front := by
  have hwhole : (front ++ last).rdropWhile inside ++ (front ++ last).rtakeWhile inside =
      front ++ last := List.rdropWhile_append_rtakeWhile
  rw [rtakeWhile_append hlast hfront] at hwhole
  exact List.append_cancel_right hwhole

theorem getLast?_rdropWhile (text : PyStr) :
    ∀ c ∈ (text.rdropWhile inside).getLast?, inside c = false := by
  intro c hc
  have hne : text.rdropWhile inside ≠ [] := by
    intro hempty
    rw [hempty] at hc
    exact absurd hc (by simp)
  rw [List.getLast?_eq_some_getLast hne] at hc
  rw [← Option.some.inj hc]
  simpa using List.rdropWhile_last_not inside text hne

/-! ## Parameters of the last segment -/

theorem splitParams_append {segment : PyStr} (hsegment : slashChar ∉ segment)
    (hfront : ∀ c ∈ front.getLast?, c = slashChar) :
    splitParams (front ++ segment) =
      (front ++ (cutAt semicolon segment).1, (cutAt semicolon segment).2) := by
  have hinside : ∀ c ∈ segment, decide (c ≠ slashChar) = true := by
    intro c hc
    rw [decide_eq_true_eq]
    exact fun heq => hsegment (heq ▸ hc)
  have hends : ∀ c ∈ front.getLast?, decide (c ≠ slashChar) = false := by
    intro c hc
    simpa using hfront c hc
  rw [splitParams, rtakeWhile_append hinside hends, rdropWhile_append_of_class hinside hends]

/-- Joined parameters are split off again. -/
theorem splitParams_joinParams (text : PyStr) :
    splitParams (joinParams (splitParams text).1 (splitParams text).2) = splitParams text := by
  have hfront : ∀ c ∈ (text.rdropWhile (· ≠ slashChar)).getLast?, c = slashChar := by
    intro c hc
    simpa using getLast?_rdropWhile text c hc
  have hsegment : slashChar ∉ text.rtakeWhile (· ≠ slashChar) := by
    intro hmem
    simpa using List.mem_rtakeWhile_imp hmem
  generalize hfrontEq : text.rdropWhile (· ≠ slashChar) = front at hfront
  generalize hsegmentEq : text.rtakeWhile (· ≠ slashChar) = segment at hsegment
  have hsplit : splitParams text =
      (front ++ (cutAt semicolon segment).1, (cutAt semicolon segment).2) := by
    rw [splitParams, hfrontEq, hsegmentEq]
  have hfirst := not_mem_cutAt_fst semicolon segment
  rw [hsplit, joinParams]
  split
  · next hnone =>
    simp only at hnone
    rw [splitParams_append (fun hmem => hsegment ((cutAt_fst_sublist _ _).subset hmem)) hfront,
      cutAt_of_not_mem hfirst, hnone]
  · have hrest : slashChar ∉ (cutAt semicolon segment).1 ++
        semicolon :: (cutAt semicolon segment).2 := by
      rw [List.mem_append, List.mem_cons]
      rintro (hmem | hmem | hmem)
      · exact hsegment ((cutAt_fst_sublist _ _).subset hmem)
      · exact absurd hmem (by decide)
      · exact hsegment ((cutAt_snd_sublist _ _).subset hmem)
    simp only
    rw [List.append_assoc, splitParams_append hrest hfront, cutAt_append hfirst]

/-- Splitting takes out at most one character. -/
theorem mem_joinParams_splitParams {c : CodePoint}
    (hc : c ∈ joinParams (splitParams text).1 (splitParams text).2) : c = semicolon ∨ c ∈ text := by
  have hfront : (text.rdropWhile (· ≠ slashChar)).Sublist text :=
    (List.rdropWhile_prefix _ _).sublist
  have hsegment : (text.rtakeWhile (· ≠ slashChar)).Sublist text :=
    (List.rtakeWhile_suffix _ _).sublist
  have hpath : ∀ d ∈ (splitParams text).1, d ∈ text := by
    intro d hd
    cases List.mem_append.mp hd with
    | inl hmem => exact hfront.subset hmem
    | inr hmem => exact hsegment.subset ((cutAt_fst_sublist _ _).subset hmem)
  rw [joinParams] at hc
  split at hc
  · exact .inr (hpath c hc)
  · rw [List.mem_append, List.mem_cons] at hc
    rcases hc with hmem | hmem | hmem
    · exact .inr (hpath c hmem)
    · exact .inl hmem
    · exact .inr (hsegment.subset ((cutAt_snd_sublist _ _).subset hmem))

theorem head_joinParams_splitParams (hroot : text.head? = some slashChar) :
    (joinParams (splitParams text).1 (splitParams text).2).head? = some slashChar := by
  have hfront : text.rdropWhile (· ≠ slashChar) ≠ [] := by
    rw [ne_eq, List.rdropWhile_eq_nil_iff]
    intro hall
    simpa using hall slashChar (List.mem_of_head? hroot)
  have hhead : (text.rdropWhile (· ≠ slashChar)).head? = some slashChar := by
    obtain ⟨rest, hrest⟩ := List.rdropWhile_prefix (· ≠ slashChar) text
    rw [← hrest, List.head?_append_of_ne_nil _ hfront] at hroot
    exact hroot
  have hpath : (splitParams text).1.head? = some slashChar := by
    rw [splitParams]
    simp only
    rw [List.head?_append_of_ne_nil _ hfront, hhead]
  rw [joinParams]
  split
  · exact hpath
  · rw [List.head?_append, hpath, Option.some_or]

/-! ## Parsing what was put together -/

namespace Url

/-- Nothing in the text has to be taken out or ends the part that it is. -/
structure WellFormed (url : Url) : Prop where
  web : url.scheme = py "http" ∨ url.scheme = py "https"
  netloc : ∀ c ∈ url.netloc, inNetloc c = true
  rooted : joinParams url.path url.params = [] ∨
    (joinParams url.path url.params).head? = some slashChar
  path : ∀ c ∈ joinParams url.path url.params, c ≠ questionMark ∧ c ≠ numberSign
  query : numberSign ∉ url.query
  params : splitParams (joinParams url.path url.params) = (url.path, url.params)
  layout : ∀ text ∈ [url.netloc, joinParams url.path url.params, url.query, url.fragment],
    ∀ c ∈ text, isLayoutChar c = false

def queryText (query : PyStr) : PyStr :=
  if query = [] then [] else questionMark :: query

def fragmentText (fragment : PyStr) : PyStr :=
  if fragment = [] then [] else numberSign :: fragment

variable {url : Url} {tables : UrlTables} {std : Stdlib}

theorem WellFormed.unparse_eq (hurl : url.WellFormed) :
    url.unparse = url.scheme ++ colonChar :: (py "//" ++ (url.netloc ++
      (joinParams url.path url.params ++ (queryText url.query ++ fragmentText url.fragment)))) := by
  have hscheme : url.scheme ≠ [] := by
    rcases hurl.web with hweb | hweb <;> rw [hweb] <;> decide
  rw [unparse, if_neg hscheme]
  rw [if_pos hurl.rooted]
  simp only [List.append_assoc, queryText, fragmentText, List.singleton_append]
  rfl

theorem layout_queryText {query : PyStr} (hquery : ∀ c ∈ query, isLayoutChar c = false) :
    ∀ c ∈ queryText query, isLayoutChar c = false := by
  intro c hc
  rw [queryText] at hc
  split at hc
  · exact absurd hc List.not_mem_nil
  · cases List.mem_cons.mp hc with
    | inl hmark => exact hmark ▸ by decide
    | inr hrest => exact hquery c hrest

theorem layout_fragmentText {fragment : PyStr} (hfragment : ∀ c ∈ fragment, isLayoutChar c = false) :
    ∀ c ∈ fragmentText fragment, isLayoutChar c = false := by
  intro c hc
  rw [fragmentText] at hc
  split at hc
  · exact absurd hc List.not_mem_nil
  · cases List.mem_cons.mp hc with
    | inl hmark => exact hmark ▸ by decide
    | inr hrest => exact hfragment c hrest

variable {host scheme netloc : PyStr}

theorem layout_scheme (hweb : scheme = py "http" ∨ scheme = py "https") :
    ∀ c ∈ scheme, isLayoutChar c = false := by
  have hplain : ∀ word ∈ [py "http", py "https"], word.all (!isLayoutChar ·) = true := by decide
  intro c hc
  have hall := hplain scheme (by simpa using hweb)
  simpa using List.all_eq_true.mp hall c hc

/-- Nothing is dropped from an address that was put together. -/
theorem WellFormed.cleaned (hurl : url.WellFormed) :
    (url.unparse.dropWhile isControlOrSpace).filter (!isLayoutChar ·) = url.unparse := by
  have hlayout := hurl.layout
  simp only [List.mem_cons, List.not_mem_nil, or_false, forall_eq_or_imp, forall_eq] at hlayout
  obtain ⟨hnetloc, hpath, hquery, hfragment⟩ := hlayout
  have hdrop : url.unparse.dropWhile isControlOrSpace = url.unparse := by
    rw [hurl.unparse_eq]
    rcases hurl.web with hweb | hweb <;> rw [hweb] <;> rfl
  rw [hdrop, hurl.unparse_eq, List.filter_eq_self]
  intro c hc
  rw [Bool.not_eq_true']
  simp only [List.mem_append, List.mem_cons] at hc
  rcases hc with hc | hc | hc | hc | hc | hc | hc
  · exact layout_scheme hurl.web c hc
  · exact hc ▸ by decide
  · have hslashes : (py "//").all (!isLayoutChar ·) = true := by decide
    simpa using List.all_eq_true.mp hslashes c hc
  · exact hnetloc c hc
  · exact hpath c hc
  · exact layout_queryText hquery c hc
  · exact layout_fragmentText hfragment c hc

theorem splitScheme_web (hweb : scheme = py "http" ∨ scheme = py "https") (rest : PyStr) :
    splitScheme std (scheme ++ colonChar :: rest) = (scheme, rest) := by
  have hcolon : colonChar ∉ scheme := by
    rcases hweb with rfl | rfl <;> decide
  have hname : scheme.head?.any isAsciiLetter ∧ scheme.all isSchemeChar := by
    rcases hweb with rfl | rfl <;> decide
  rw [splitScheme, cutAt_append hcolon, if_pos ⟨List.mem_append_right _ List.mem_cons_self, hname⟩]
  rcases hweb with rfl | rfl <;> rfl

theorem splitNetloc_append {rest : PyStr} (hnetloc : ∀ c ∈ netloc, inNetloc c = true)
    (hrest : ∀ c ∈ rest.head?, inNetloc c = false) :
    splitNetloc (py "//" ++ (netloc ++ rest)) = (netloc, rest) := by
  have hdrop : (py "//" ++ (netloc ++ rest)).drop 2 = netloc ++ rest := rfl
  rw [splitNetloc, if_pos (by rfl), hdrop, Framing.takeWhile_append hnetloc hrest,
    List.dropWhile_append_of_pos hnetloc]
  cases rest with
  | nil => rfl
  | cons c rest => rw [List.dropWhile_cons_of_neg (by simp [hrest c rfl])]

theorem cutAt_fragmentText (htext : numberSign ∉ text) (fragment : PyStr) :
    cutAt numberSign (text ++ fragmentText fragment) = (text, fragment) := by
  rw [fragmentText]
  split
  · next hnone => rw [hnone, List.append_nil, cutAt_of_not_mem htext]
  · exact cutAt_append htext fragment

theorem cutAt_queryText (htext : questionMark ∉ text) (query : PyStr) :
    cutAt questionMark (text ++ queryText query) = (text, query) := by
  rw [queryText]
  split
  · next hnone => rw [hnone, List.append_nil, cutAt_of_not_mem htext]
  · exact cutAt_append htext query

/-- Parsing gives back the parts that were put together. -/
theorem WellFormed.urlparse_unparse (hurl : url.WellFormed) (tables : UrlTables) (std : Stdlib) :
    urlparse tables std url.unparse =
      if netlocAccepted tables url.netloc then some url else none := by
  have hpath : numberSign ∉ joinParams url.path url.params ++ queryText url.query := by
    rw [List.mem_append]
    rintro (hmem | hmem)
    · exact (hurl.path _ hmem).2 rfl
    · rw [queryText] at hmem
      split at hmem
      · exact absurd hmem List.not_mem_nil
      · exact hurl.query ((List.mem_cons.mp hmem).resolve_left (by decide))
  have hmark : questionMark ∉ joinParams url.path url.params :=
    fun hmem => (hurl.path _ hmem).1 rfl
  have hends : ∀ c ∈ (joinParams url.path url.params ++
      (queryText url.query ++ fragmentText url.fragment)).head?, inNetloc c = false := by
    intro c hc
    rcases hurl.rooted with hempty | hroot
    · rw [hempty, List.nil_append, queryText] at hc
      split at hc
      · rw [List.nil_append, fragmentText] at hc
        split at hc
        · exact absurd hc (by simp)
        · exact Option.some.inj hc ▸ by decide
      · exact Option.some.inj hc ▸ by decide
    · rw [List.head?_append, hroot, Option.some_or] at hc
      exact Option.some.inj hc ▸ by decide
  have hscheme : url.scheme ∈ usesParams := by
    rcases hurl.web with hweb | hweb <;> rw [hweb] <;> decide
  rw [urlparse, hurl.cleaned, hurl.unparse_eq]
  simp only [splitScheme_web hurl.web, splitNetloc_append hurl.netloc hends]
  rw [splitRest, ← List.append_assoc, cutAt_fragmentText hpath]
  simp only [cutAt_queryText hmark, if_pos hscheme, hurl.params]

theorem splitScheme_snd_sublist (std : Stdlib) (text : PyStr) :
    (splitScheme std text).2.Sublist text := by
  rw [splitScheme]
  split
  · exact cutAt_snd_sublist colonChar text
  · exact List.Sublist.refl text

theorem splitNetloc_sublist (text : PyStr) :
    (splitNetloc text).1.Sublist text ∧ (splitNetloc text).2.Sublist text := by
  rw [splitNetloc]
  split
  · exact ⟨(List.takeWhile_sublist _).trans (List.drop_sublist _ _),
      (List.dropWhile_sublist _).trans (List.drop_sublist _ _)⟩
  · exact ⟨List.nil_sublist _, List.Sublist.refl _⟩

theorem inNetloc_of_splitNetloc : ∀ c ∈ (splitNetloc text).1, inNetloc c = true := by
  intro c hc
  rw [splitNetloc] at hc
  split at hc
  · exact List.mem_takeWhile_imp hc
  · exact absurd hc List.not_mem_nil

theorem head_splitNetloc (hnetloc : (splitNetloc text).1 ≠ []) :
    ∀ c ∈ (splitNetloc text).2.head?, inNetloc c = false := by
  intro c hc
  rw [splitNetloc] at hnetloc hc
  split at hnetloc
  · next hslashes =>
    rw [if_pos hslashes] at hc
    have hne : (text.drop 2).dropWhile inNetloc ≠ [] := by
      intro hempty
      rw [hempty] at hc
      exact absurd hc (by simp)
    rw [List.head?_eq_some_head hne] at hc
    rw [← Option.some.inj hc]
    exact List.head_dropWhile_not inNetloc hne
  · exact absurd rfl hnetloc

/-- What stands before a query and a fragment is empty or starts with a slash. -/
theorem rooted_of_head (hhead : ∀ c ∈ text.head?, inNetloc c = false) :
    (cutAt questionMark (cutAt numberSign text).1).1 = [] ∨
      (cutAt questionMark (cutAt numberSign text).1).1.head? = some slashChar := by
  cases text with
  | nil => exact .inl rfl
  | cons c rest =>
    have hc := hhead c rfl
    simp only [inNetloc, Bool.and_eq_false_iff, decide_eq_false_iff_not, not_not, ne_eq] at hc
    rcases hc with (rfl | rfl) | rfl
    · right
      rfl
    · left
      rfl
    · left
      rfl

theorem wellFormed_splitRest (hweb : scheme = py "http" ∨ scheme = py "https")
    (hinside : ∀ c ∈ netloc, inNetloc c = true) (hhead : ∀ c ∈ text.head?, inNetloc c = false)
    (hnetloc : ∀ c ∈ netloc, isLayoutChar c = false)
    (htext : ∀ c ∈ text, isLayoutChar c = false) : (splitRest scheme netloc text).WellFormed := by
  have hscheme : scheme ∈ usesParams := by
    rcases hweb with rfl | rfl <;> decide
  have hunfragmented := cutAt_fst_sublist numberSign text
  have hunqueried := cutAt_fst_sublist questionMark (cutAt numberSign text).1
  have hpath : splitRest scheme netloc text =
      { scheme, netloc, path := (splitParams (cutAt questionMark (cutAt numberSign text).1).1).1,
        params := (splitParams (cutAt questionMark (cutAt numberSign text).1).1).2,
        query := (cutAt questionMark (cutAt numberSign text).1).2,
        fragment := (cutAt numberSign text).2 } := by
    rw [splitRest]
    simp only [if_pos hscheme]
  have hmem : ∀ c ∈ joinParams (splitParams (cutAt questionMark (cutAt numberSign text).1).1).1
      (splitParams (cutAt questionMark (cutAt numberSign text).1).1).2,
      c = semicolon ∨ c ∈ (cutAt questionMark (cutAt numberSign text).1).1 :=
    fun c hc => mem_joinParams_splitParams hc
  rw [hpath]
  constructor
  · exact hweb
  · exact hinside
  · rcases rooted_of_head hhead with hempty | hroot
    · left
      simp only [hempty]
      rfl
    · exact .inr (head_joinParams_splitParams hroot)
  · intro c hc
    rcases hmem c hc with rfl | hc
    · decide
    · constructor
      · rintro rfl
        exact not_mem_cutAt_fst _ _ hc
      · rintro rfl
        exact not_mem_cutAt_fst _ _ (hunqueried.subset hc)
  · exact fun hc => not_mem_cutAt_fst _ _ ((cutAt_snd_sublist _ _).subset hc)
  · exact splitParams_joinParams _
  · simp only [List.mem_cons, List.not_mem_nil, or_false, forall_eq_or_imp, forall_eq]
    refine ⟨hnetloc, ?_, ?_, ?_⟩
    · intro c hc
      rcases hmem c hc with rfl | hc
      · decide
      · exact htext c (hunfragmented.subset (hunqueried.subset hc))
    · exact fun c hc => htext c (hunfragmented.subset ((cutAt_snd_sublist _ _).subset hc))
    · exact fun c hc => htext c ((cutAt_snd_sublist _ _).subset hc)

/-- What is parsed with a netloc can be put together. -/
theorem wellFormed_of_urlparse (hparsed : urlparse tables std text = some url)
    (hweb : url.scheme = py "http" ∨ url.scheme = py "https") (hnetloc : url.netloc ≠ []) :
    url.WellFormed := by
  rw [urlparse] at hparsed
  have hclean : ∀ c ∈ (text.dropWhile isControlOrSpace).filter (!isLayoutChar ·),
      isLayoutChar c = false := by
    intro c hc
    simpa using (List.mem_filter.mp hc).2
  generalize (text.dropWhile isControlOrSpace).filter (!isLayoutChar ·) = clean at hparsed hclean
  have hschemed := splitScheme_snd_sublist std clean
  have hlocated := splitNetloc_sublist (splitScheme std clean).2
  split at hparsed
  · obtain rfl := Option.some.inj hparsed
    exact wellFormed_splitRest hweb inNetloc_of_splitNetloc (head_splitNetloc hnetloc)
      (fun c hc => hclean c (hschemed.subset (hlocated.1.subset hc)))
      (fun c hc => hclean c (hschemed.subset (hlocated.2.subset hc)))
  · exact absurd hparsed (by simp)

theorem netlocAccepted_of_urlparse (hparsed : urlparse tables std text = some url) :
    netlocAccepted tables url.netloc = true := by
  rw [urlparse] at hparsed
  split at hparsed
  · next haccepted => exact Option.some.inj hparsed ▸ haccepted
  · exact absurd hparsed (by simp)

/-- An address with another netloc is parsed back. -/
theorem WellFormed.withNetloc (hurl : url.WellFormed) (hinside : ∀ c ∈ netloc, inNetloc c = true)
    (hlayout : ∀ c ∈ netloc, isLayoutChar c = false) : { url with netloc }.WellFormed := by
  have hold := hurl.layout
  simp only [List.mem_cons, List.not_mem_nil, or_false, forall_eq_or_imp, forall_eq] at hold
  exact {
    web := hurl.web
    netloc := hinside
    rooted := hurl.rooted
    path := hurl.path
    query := hurl.query
    params := hurl.params
    layout := by
      simp only [List.mem_cons, List.not_mem_nil, or_false, forall_eq_or_imp, forall_eq]
      exact ⟨hlayout, hold.2⟩ }

/-! ## Hosts and ports -/

theorem hostInfo_append {info : PyStr} (hinfo : atSign ∉ info) :
    hostInfo (front ++ atSign :: info) = info := by
  have hinside : ∀ c ∈ info, decide (c ≠ atSign) = true := by
    intro c hc
    rw [decide_eq_true_eq]
    exact fun heq => hinfo (heq ▸ hc)
  rw [hostInfo, ← List.singleton_append, ← List.append_assoc, rtakeWhile_append hinside (by simp)]

theorem hostInfo_of_not_mem (hnetloc : atSign ∉ netloc) : hostInfo netloc = netloc := by
  rw [hostInfo, List.rtakeWhile_eq_self_iff]
  intro c hc
  rw [decide_eq_true_eq]
  exact fun heq => hnetloc (heq ▸ hc)

theorem userinfo_append {user password info : PyStr} (hinfo : atSign ∉ info)
    (huser : colonChar ∉ user)
    (hnetloc : url.netloc = user ++ colonChar :: password ++ atSign :: info) :
    url.userinfo = (some user, some password) := by
  have hinside : ∀ c ∈ info, decide (c ≠ atSign) = true := by
    intro c hc
    rw [decide_eq_true_eq]
    exact fun heq => hinfo (heq ▸ hc)
  have hends : ∀ c ∈ (user ++ colonChar :: password ++ [atSign]).getLast?,
      decide (c ≠ atSign) = false := by
    rw [List.getLast?_concat]
    intro c hc
    simpa using (Option.some.inj hc).symm
  have hfront : (url.netloc.rdropWhile (· ≠ atSign)).dropLast = user ++ colonChar :: password := by
    rw [hnetloc, List.append_cons (user ++ colonChar :: password) atSign info,
      rdropWhile_append_of_class hinside hends, List.dropLast_concat]
  have hat : atSign ∈ url.netloc := by
    rw [hnetloc]
    exact List.mem_append_right _ List.mem_cons_self
  rw [userinfo, if_pos hat]
  simp only
  rw [hfront, cutAt_append huser, if_pos (List.mem_append_right _ List.mem_cons_self)]

/-- The lower-case letter of an ASCII letter. -/
def lowerChar (c : CodePoint) : CodePoint :=
  if h : 0x41 ≤ c.val ∧ c.val ≤ 0x5A then ⟨c.val + 0x20, CodePoint.small_lt h⟩ else c

theorem lower_of_isAscii (hascii : ∀ c ∈ text, isAscii c = true) :
    lower std text = text.map lowerChar := by
  rw [lower, ← List.flatMap_pure_eq_map]
  apply List.flatMap_congr
  intro c hc
  by_cases hupper : 0x41 ≤ c.val ∧ c.val ≤ 0x5A
  · have hlowered : lowerChar c = ⟨c.val + 0x20, by omega⟩ := dif_pos hupper
    rw [if_pos (hascii c hc), dif_pos hupper]
    exact congrArg (fun d => [d]) hlowered.symm
  · have hsame : lowerChar c = c := dif_neg hupper
    rw [if_pos (hascii c hc), dif_neg hupper]
    exact congrArg (fun d => [d]) hsame.symm

theorem lowerChar_cases (c : CodePoint) : lowerChar c = c ∨ isAsciiLetter (lowerChar c) = true := by
  rw [lowerChar]
  split
  · right
    simp only [isAsciiLetter, Bool.or_eq_true, Bool.and_eq_true, decide_eq_true_eq]
    omega
  · exact .inl rfl

theorem lowerChar_idem (c : CodePoint) : lowerChar (lowerChar c) = lowerChar c := by
  by_cases hupper : 0x41 ≤ c.val ∧ c.val ≤ 0x5A
  · have hlowered : lowerChar c = ⟨c.val + 0x20, by omega⟩ := dif_pos hupper
    rw [hlowered]
    exact dif_neg (by simp only; omega)
  · have hsame : lowerChar c = c := dif_neg hupper
    rw [hsame, hsame]

theorem lowerHost_of_isAscii (hascii : ∀ c ∈ host, isAscii c = true) :
    lowerHost std host = (host.takeWhile (· ≠ CodePoint.ofChar '%')).map lowerChar ++
      host.dropWhile (· ≠ CodePoint.ofChar '%') := by
  rw [lowerHost, lower_of_isAscii fun c hc => hascii c ((List.takeWhile_sublist _).subset hc)]

theorem length_lowerHost (hascii : ∀ c ∈ host, isAscii c = true) :
    (lowerHost std host).length = host.length := by
  rw [lowerHost_of_isAscii hascii, List.length_append, List.length_map, ← List.length_append,
    List.takeWhile_append_dropWhile]

theorem mem_lowerHost (hascii : ∀ c ∈ host, isAscii c = true) {c : CodePoint}
    (hc : c ∈ lowerHost std host) : c ∈ host ∨ isAsciiLetter c = true := by
  rw [lowerHost_of_isAscii hascii, List.mem_append, List.mem_map] at hc
  rcases hc with ⟨d, hd, rfl⟩ | hc
  · rcases lowerChar_cases d with hsame | hletter
    · exact .inl (hsame.symm ▸ (List.takeWhile_sublist _).subset hd)
    · exact .inr hletter
  · exact .inl ((List.dropWhile_sublist _).subset hc)

theorem lowerHost_idem (hascii : ∀ c ∈ host, isAscii c = true) :
    lowerHost std (lowerHost std host) = lowerHost std host := by
  have hinside : ∀ c ∈ (host.takeWhile (· ≠ CodePoint.ofChar '%')).map lowerChar,
      decide (c ≠ CodePoint.ofChar '%') = true := by
    intro c hc
    obtain ⟨d, hd, rfl⟩ := List.mem_map.mp hc
    rcases lowerChar_cases d with hsame | hletter
    · rw [hsame]
      simpa using List.mem_takeWhile_imp hd
    · rw [decide_eq_true_eq]
      rintro heq
      rw [heq] at hletter
      exact absurd hletter (by decide)
  have hends : ∀ c ∈ (host.dropWhile (· ≠ CodePoint.ofChar '%')).head?,
      decide (c ≠ CodePoint.ofChar '%') = false := by
    intro c hc
    have hhead := List.head?_dropWhile_not (· ≠ CodePoint.ofChar '%') host
    rw [hc] at hhead
    exact hhead
  have hlowered : ∀ c ∈ (host.takeWhile (· ≠ CodePoint.ofChar '%')).map lowerChar,
      lowerChar c = c := by
    intro c hc
    obtain ⟨d, _, rfl⟩ := List.mem_map.mp hc
    exact lowerChar_idem d
  have hwhole : ∀ c ∈ lowerHost std host, isAscii c = true := by
    intro c hc
    rcases mem_lowerHost hascii hc with hmem | hletter
    · exact hascii c hmem
    · simp only [isAsciiLetter, Bool.or_eq_true, Bool.and_eq_true, decide_eq_true_eq] at hletter
      rw [isAscii, decide_eq_true_eq]
      omega
  rw [lowerHost_of_isAscii hwhole, lowerHost_of_isAscii hascii,
    Framing.takeWhile_append hinside hends, List.dropWhile_append_of_pos hinside,
    List.map_congr_left hlowered, List.map_id', List.dropWhile_idempotent]

theorem readDecimal_decimal (n : ℕ) : readDecimal (decimal n) = n := by
  have hread : ∀ (digits : List Char) (value : ℕ),
      (digits.map CodePoint.ofChar).foldl (fun value c => value * 10 + (c.val - 0x30)) value =
        Nat.ofDigitChars 10 digits value := by
    intro digits
    induction digits with
    | nil => exact fun _ => rfl
    | cons digit digits ih =>
      intro value
      rw [List.map_cons, List.foldl_cons, ih, Nat.ofDigitChars_eq_foldl,
        Nat.ofDigitChars_eq_foldl, List.foldl_cons, Nat.mul_comm value]
      rfl
  rw [readDecimal, decimal, hread, Nat.ofDigitChars_ten_toDigits]

theorem port_eq_some {value : ℕ} (hport : url.port = some (some value)) : value ≤ 65535 := by
  rw [port] at hport
  split at hport
  · exact absurd hport (by simp)
  · split at hport
    · next hread => exact Option.some.inj (Option.some.inj hport) ▸ hread.2
    · exact absurd hport (by simp)

theorem port_of_decimal {value : ℕ} (hvalue : value ≤ 65535)
    (htext : (hostPort url.netloc).2 = decimal value) : url.port = some (some value) := by
  have hdigits : (decimal value).all isDigit = true :=
    List.all_eq_true.mpr fun c hc => isDigit_of_mem_decimal c hc
  rw [port, htext, if_neg (decimal_ne_nil value), readDecimal_decimal, if_pos ⟨hdigits, hvalue⟩]

theorem port_of_empty (htext : (hostPort url.netloc).2 = []) : url.port = some none := by
  rw [port, if_pos htext]

end Url

end RootSeeker.Python
