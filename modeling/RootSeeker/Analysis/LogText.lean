import RootSeeker.Python.Repr

/-!
# Unwrapping log text

`unwrap_embedded_log_text`: alert shells carry the log line as JSON inside a
string, possibly several times over, and possibly cut off.
-/

namespace RootSeeker.Analysis

open Python

def embeddedKeys : List PyStr :=
  [py "content", py "message", py "log", py "log_content", py "body", py "text",
    py "stackTrace", py "stack_trace", py "exception", py "error", py "err_msg"]

/-- `text.replace(pattern, replacement)` for a pattern of two characters. -/
def replacePair (first second replacement : CodePoint) : PyStr → PyStr
  | c :: d :: rest =>
    if c = first ∧ d = second then
      replacement :: replacePair first second replacement rest
    else c :: replacePair first second replacement (d :: rest)
  | text => text

def newline : CodePoint := CodePoint.ofChar '\n'

def unescapeLogEscapes (text : PyStr) : PyStr :=
  replacePair backslash backslash backslash
    (replacePair backslash doubleQuote doubleQuote
      (replacePair backslash (CodePoint.ofChar 't') (CodePoint.ofChar '\t')
        (replacePair backslash (CodePoint.ofChar 'n') newline text)))

/-- What follows a quoted key, a colon and an opening quote. -/
def afterEmbeddedKey (text : PyStr) : Option PyStr :=
  embeddedKeys.findSome? fun key =>
    let quoted := doubleQuote :: (key ++ [doubleQuote])
    if quoted.isPrefixOf text then
      match (text.drop quoted.length).dropWhile isSpace with
      | colon :: rest =>
        if colon = CodePoint.ofChar ':' then
          match rest.dropWhile isSpace with
          | quote :: body => if quote = doubleQuote then some body else none
          | [] => none
        else none
      | [] => none
    else none

/-- The first position at which an embedded key starts. -/
def searchEmbedded : PyStr → Option PyStr
  | [] => none
  | c :: rest => (afterEmbeddedKey (c :: rest)).or (searchEmbedded rest)

/-- The body of JSON that was cut off, if it looks like a stack trace. -/
def salvageTruncatedEmbedded (std : Stdlib) (text : PyStr) : Option PyStr :=
  (searchEmbedded text).bind fun raw =>
    let unescaped := unescapeLogEscapes (if [doubleQuote].isSuffixOf raw then raw.dropLast else raw)
    if py "at " <:+: unescaped ∨ py "exception" <:+: lower std unescaped ∨
        newline ∈ unescaped then some unescaped
    else none

/-- `_try_parse_json`; `None` and a decoded `null` are the same to its caller. -/
def tryParseJson (std : Stdlib) (text : PyStr) : Option Json :=
  match text.head? with
  | none => none
  | some c =>
    if c ∉ py "\x7b[\"" then none
    else
      match std.jsonLoads text with
      | some .null => none
      | some value => some value
      | none => (salvageTruncatedEmbedded std text).map Json.str

/-- The first of the texts that is not blank. -/
def firstNonBlank (texts : List PyStr) : PyStr :=
  (texts.find? fun text => strip text ≠ []).getD []

/-- A value is neither `None` nor the empty string. -/
def isPresent : Json → Bool
  | .null => false
  | .str text => text ≠ []
  | _ => true

/-- The text as it is, or with its escapes resolved. -/
def unescapedOr (text value : PyStr) : PyStr :=
  if (py "\\n" <:+: text ∨ py "\\t" <:+: text) ∧ unescapeLogEscapes text ≠ text then
    unescapeLogEscapes text
  else value

/-- A decoded string that unwraps to nothing new. -/
def decodedText (parsed : Json) : Option PyStr :=
  match parsed with
  | .str decoded => if strip decoded ≠ [] then some (unescapeLogEscapes decoded) else none
  | _ => none

def isText (text : PyStr) : Json → Bool
  | .str other => other = text
  | _ => false

/-- `unwrap_embedded_log_text` with so many levels left; level zero prints. -/
def unwrapLogText (std : Stdlib) : ℕ → Json → PyStr
  | _, .null => []
  | 0, value => str std value
  | levels + 1, .obj fields =>
    firstNonBlank ((embeddedKeys.filterMap fun key =>
      (Dict.get? fields key).filter isPresent).map (unwrapLogText std levels))
  | levels + 1, .arr items => firstNonBlank (items.map (unwrapLogText std levels))
  | levels + 1, .str value =>
    let text := strip value
    if text = [] then []
    else
      match (tryParseJson std text).filter (!isText text ·) with
      | none => unescapedOr text value
      | some parsed =>
        let inner := unwrapLogText std levels parsed
        if strip inner ≠ [] ∧ inner ≠ text then inner
        else (decodedText parsed).getD (unescapedOr text value)
  | _ + 1, value => str std value

/-- `unwrap_embedded_log_text(value)`: levels `0` to `_MAX_DEPTH` unwrap. -/
def unwrapEmbeddedLogText (std : Stdlib) (value : Json) : PyStr :=
  unwrapLogText std 7 value

end RootSeeker.Analysis
