import RootSeeker.Core.Patterns
import RootSeeker.Python.Lines
import RootSeeker.Python.Repr

/-!
# Symbol spans

The scanners that find the classes and functions of a source file by its lines,
one for each kind of language.
-/

namespace RootSeeker.CodeIndex

open Python Patterns

/-- The lines of a named code symbol, counted from one. -/
structure SymbolSpan where
  name : PyStr
  kind : PyStr
  startLine : ℕ
  endLine : ℕ
  deriving DecidableEq

def leftBrace : CodePoint := CodePoint.ofChar '\x7b'

def rightBrace : CodePoint := CodePoint.ofChar '\x7d'

/-! ## Patterns -/

section LinePatterns

variable (wordChar : CodePoint → Bool)

def spaces : Pattern CodePoint := many (one isSpace)

def spacesNeeded : Pattern CodePoint := atLeastOne (one isSpace)

def keyword (text : String) : Pattern CodePoint := literally (py text)

def keywordOf (texts : List String) : Pattern CodePoint :=
  choice (texts.map keyword)

def symbolChar (symbols : String) (c : CodePoint) : Bool := c ∈ py symbols

def isLetter (c : CodePoint) : Bool :=
  (0x41 ≤ c.val && c.val ≤ 0x5A) || (0x61 ≤ c.val && c.val ≤ 0x7A)

/-- `(?P<name>[A-Za-z_…][\w…]*)`, with further characters allowed in both classes. -/
def identifier (first later : String) : Pattern CodePoint :=
  group (follow (one fun c => isLetter c || symbolChar first c)
    (many (one fun c => isWordChar wordChar c || symbolChar later c)))

/-- `(?:(?:…)\s+)`. -/
def modifier (texts : List String) : Pattern CodePoint :=
  follow (keywordOf texts) spacesNeeded

def javaTypeStart : Pattern CodePoint :=
  sequence [spaces,
    many (modifier ["public", "protected", "private", "static", "final", "abstract", "sealed",
      "non-sealed", "strictfp"]),
    keywordOf ["class", "interface", "enum", "record"], spacesNeeded,
    identifier wordChar "_" "$", boundary (isWordChar wordChar)]

def javaMethodStart : Pattern CodePoint :=
  sequence [spaces,
    atLeastOne (modifier ["public", "protected", "private", "static", "final", "native",
      "synchronized", "abstract", "default", "strictfp"]),
    optional (sequence [keyword "<", atLeastOne (one fun c => !symbolChar ">" c), keyword ">",
      spaces]),
    atLeastOne (one fun c => isWordChar wordChar c || symbolChar ".$[]" c), spacesNeeded,
    identifier wordChar "_" "$", spaces, keyword "("]

def javaConstructorStart : Pattern CodePoint :=
  sequence [spaces, atLeastOne (modifier ["public", "protected", "private"]),
    identifier wordChar "_" "$", spaces, keyword "("]

def pythonDef : Pattern CodePoint :=
  sequence [group spaces, optional (modifier ["async"]), keyword "def", spacesNeeded,
    identifier wordChar "_" "", spaces, keyword "("]

def pythonClass : Pattern CodePoint :=
  sequence [group spaces, keyword "class", spacesNeeded, identifier wordChar "_" "", spaces,
    one (symbolChar ":(")]

def jsFunction : Pattern CodePoint :=
  sequence [spaces, optional (modifier ["export"]), optional (modifier ["async"]),
    keyword "function", spacesNeeded, identifier wordChar "_$" "$", spaces, keyword "("]

def jsClass : Pattern CodePoint :=
  sequence [spaces, optional (modifier ["export"]), keyword "class", spacesNeeded,
    identifier wordChar "_$" "$", boundary (isWordChar wordChar)]

def jsMethod : Pattern CodePoint :=
  sequence [spaces, optional (modifier ["async"]), identifier wordChar "_$" "$", spaces,
    keyword "(", many (one fun c => !symbolChar ";" c), keyword ")", spaces, keyword "\x7b"]

def goFunction : Pattern CodePoint :=
  sequence [keyword "func", spacesNeeded,
    optional (sequence [keyword "(", atLeastOne (one fun c => !symbolChar ")" c), keyword ")",
      spacesNeeded]),
    identifier wordChar "_" "", spaces, keyword "("]

end LinePatterns

/-- The only group of a pattern that matches the start of a line. -/
def nameOf (pattern : Pattern CodePoint) (line : PyStr) : Option PyStr :=
  (matchStart pattern line).bind (·.head?)

/-! ## Python -/

structure PythonStart where
  line : ℕ
  indent : ℕ
  name : PyStr
  kind : PyStr

section Python

variable (wordChar : CodePoint → Bool)

def pythonStart (entry : PyStr × ℕ) : Option PythonStart :=
  if (py "#").isPrefixOf (strip entry.1) then none
  else
    match matchStart (pythonClass wordChar) entry.1 with
    | some [indent, name] => some ⟨entry.2 + 1, indent.length, name, py "class"⟩
    | _ =>
      match matchStart (pythonDef wordChar) entry.1 with
      | some [indent, name] => some ⟨entry.2 + 1, indent.length, name, py "function"⟩
      | _ => none

/-- `_trim_trailing_blank`: the last line, from `endLine` down to `startLine`, that is not
blank. -/
def trimTrailingBlank (lines : List PyStr) (startLine : ℕ) : ℕ → ℕ
  | 0 => 0
  | endLine + 1 =>
    if startLine < endLine + 1 ∧ strip (lines.getD endLine []) = [] then
      trimTrailingBlank lines startLine endLine
    else endLine + 1

/-- A symbol ends before the next one that is indented no further. -/
def pythonSpansFrom (lines : List PyStr) : List PythonStart → List SymbolSpan
  | [] => []
  | start :: later =>
    let endLine := ((later.find? (·.indent ≤ start.indent)).map (·.line - 1)).getD lines.length
    { name := start.name
      kind := start.kind
      startLine := start.line
      endLine := trimTrailingBlank lines start.line endLine } ::
    pythonSpansFrom lines later

def extractPythonSpans (lines : List PyStr) : List SymbolSpan :=
  pythonSpansFrom lines (lines.zipIdx.filterMap (pythonStart wordChar))

end Python

/-! ## Languages with braces -/

/-- The number of lines to the next opening brace, at most so many lines on, unless the
signature ends without a body. -/
def findOpeningBrace (atStart : Bool) : ℕ → List PyStr → Option ℕ
  | 0, _ => none
  | _, [] => none
  | count + 1, line :: rest =>
    let stripped := strip line
    if leftBrace ∈ line then some 0
    else if !atStart && stripped ≠ [] && !(py ",").isSuffixOf stripped &&
        !(py "(").isSuffixOf stripped &&
        ((py ";").isSuffixOf stripped || (py "@").isPrefixOf stripped) then none
    else (findOpeningBrace false count rest).map (· + 1)

/-- The depth and whether a block was opened, after the line; nothing where a
block is closed in it. -/
def braceDepth : PyStr → ℤ × Bool → Option (ℤ × Bool)
  | [], state => some state
  | c :: rest, (depth, started) =>
    if c = leftBrace then braceDepth rest (depth + 1, true)
    else if c = rightBrace then
      if started ∧ depth - 1 = 0 then none else braceDepth rest (depth - 1, started)
    else braceDepth rest (depth, started)

/-- The number of lines to the one that closes the first block. -/
def matchBraceBlock : ℤ × Bool → List PyStr → Option ℕ
  | _, [] => none
  | state, line :: rest =>
    match braceDepth line state with
    | none => some 0
    | some state => (matchBraceBlock state rest).map (· + 1)

/-- The lines to the opening brace of a header, and from there to the closing one. -/
def blockOf (lines : List PyStr) (index : ℕ) : Option (ℕ × ℕ) :=
  (findOpeningBrace true 12 (lines.drop index)).bind fun opening =>
    (matchBraceBlock (0, false) (lines.drop (index + opening))).map (opening, ·)

/-- The spans of the blocks whose first line has a header, from a line on.  What
is inside a block is scanned again where its kind may nest. -/
def braceSpansFrom (header : PyStr → Option (PyStr × PyStr)) (nests : PyStr → Bool)
    (lines : List PyStr) (index : ℕ) : List SymbolSpan :=
  if index < lines.length then
    match header (lines.getD index []) with
    | none => braceSpansFrom header nests lines (index + 1)
    | some (kind, name) =>
      match blockOf lines index with
      | none => braceSpansFrom header nests lines (index + 1)
      | some (opening, length) =>
        { name := name
          kind := kind
          startLine := index + 1
          endLine := index + opening + length + 1 } ::
        braceSpansFrom header nests lines
          (if nests kind then index + 1 else index + opening + length + 1)
  else []
termination_by lines.length - index
decreasing_by all_goals (try split) <;> omega

def spanBefore (left right : SymbolSpan) : Bool :=
  left.startLine < right.startLine || (left.startLine = right.startLine &&
    (left.endLine < right.endLine || (left.endLine = right.endLine &&
      decide (left.name ≤ right.name))))

/-- Longer spans first among those that start on the same line. -/
def longerBefore (left right : SymbolSpan) : Bool :=
  left.startLine < right.startLine || (left.startLine = right.startLine &&
    (right.endLine < left.endLine || (left.endLine = right.endLine &&
      decide (left.name ≤ right.name))))

def sameSpan (left right : SymbolSpan) : Bool :=
  left.startLine = right.startLine && left.endLine = right.endLine && left.name = right.name

def dedupeSpans (spans : List SymbolSpan) : List SymbolSpan :=
  ((spans.mergeSort longerBefore).foldl
    (fun kept span => if kept.any (sameSpan · span) then kept else kept ++ [span])
    []).mergeSort spanBefore

section Braces

variable (wordChar : CodePoint → Bool)

def javaHeader (line : PyStr) : Option (PyStr × PyStr) :=
  let typeName := nameOf (javaTypeStart wordChar) line
  let methodName := (nameOf (javaMethodStart wordChar) line).or
    (nameOf (javaConstructorStart wordChar) line)
  (typeName.map (py "class", ·)).or (methodName.map (py "method", ·))

def extractJavaSpans (lines : List PyStr) : List SymbolSpan :=
  dedupeSpans (braceSpansFrom (javaHeader wordChar) (· = py "class") lines 0)

/-- Statements that look like methods. -/
def jsStatements : List PyStr :=
  [py "if", py "for", py "while", py "switch", py "catch", py "function"]

def jsHeader (line : PyStr) : Option (PyStr × PyStr) :=
  let methodName := if leftBrace ∈ line then
      (nameOf (jsMethod wordChar) line).filter (· ∉ jsStatements) else none
  ((nameOf (jsClass wordChar) line).map (py "class", ·)).or
    (((nameOf (jsFunction wordChar) line).map (py "function", ·)).or
      (methodName.map (py "method", ·)))

def extractBraceSpans (lines : List PyStr) : List SymbolSpan :=
  dedupeSpans (braceSpansFrom (jsHeader wordChar) (· = py "class") lines 0)

def goHeader (line : PyStr) : Option (PyStr × PyStr) :=
  (nameOf (goFunction wordChar) line).map (py "function", ·)

def extractGoSpans (lines : List PyStr) : List SymbolSpan :=
  braceSpansFrom (goHeader wordChar) (fun _ => false) lines 0

end Braces

/-- `extract_symbol_spans`. -/
def extractSymbolSpans (std : Stdlib) (wordChar : CodePoint → Bool) (lines : List PyStr)
    (language : PyStr) : List SymbolSpan :=
  let lang := lower std (strip language)
  if lang = py "java" then extractJavaSpans wordChar lines
  else if lang ∈ [py "python", py "py"] then extractPythonSpans wordChar lines
  else if lang ∈ [py "javascript", py "js", py "typescript", py "ts", py "tsx", py "jsx"] then
    extractBraceSpans wordChar lines
  else if lang = py "go" then extractGoSpans wordChar lines
  else []

end RootSeeker.CodeIndex
