import RootSeeker.Core.Brackets
import RootSeeker.Core.Framing
import RootSeeker.Python.Repr
import RootSeeker.Python.Urls

/-!
# Decoding JSON

`json.loads` on a string.  The scanner reads one value and leaves the rest of
the text; the interpreter's limits on the digits of an integer and on nested
arrays and objects raise errors of their own.  Every text that it reads is
balanced in its brackets outside quotes.
-/

namespace RootSeeker.Python

open Brackets

/-- What `json.loads` raises: `JSONDecodeError`, the `ValueError` for an integer
with too many digits, and `RecursionError`. -/
inductive LoadsError where
  | decodeError
  | digitLimit
  | recursionLimit
  deriving DecidableEq

/-- `sys.get_int_max_str_digits()`. -/
def maxIntDigits : ℕ := 4300

/-- A value and the rest of the text. -/
abbrev Reading (β : Type) := Except LoadsError (β × PyStr)

def isJsonBlank (c : CodePoint) : Bool :=
  c.val = 0x20 || c.val = 0x09 || c.val = 0x0A || c.val = 0x0D

def skipBlank (text : PyStr) : PyStr :=
  text.dropWhile isJsonBlank

def commaChar : CodePoint := CodePoint.ofChar ','
def minusChar : CodePoint := CodePoint.ofChar '-'
def dotChar : CodePoint := CodePoint.ofChar '.'
def openBrace : CodePoint := ⟨0x7B, by decide⟩
def closeBrace : CodePoint := ⟨0x7D, by decide⟩
def letterU : CodePoint := CodePoint.ofChar 'u'

/-! ## Strings -/

def hexDigitValue (c : CodePoint) : Option ℕ :=
  if isDigit c then some (c.val - 0x30)
  else if 0x61 ≤ c.val ∧ c.val ≤ 0x66 then some (c.val - 0x57)
  else if 0x41 ≤ c.val ∧ c.val ≤ 0x46 then some (c.val - 0x37)
  else none

def hexNumber (digits : PyStr) : Option ℕ :=
  digits.foldlM (fun value c => (hexDigitValue c).map (value * 16 + ·)) 0

/-- Four hexadecimal digits. -/
def readHex4 (text : PyStr) : Option (ℕ × PyStr) :=
  if (text.take 4).length = 4 then (hexNumber (text.take 4)).map (·, text.drop 4) else none

def isHighSurrogate (unit : ℕ) : Bool := 0xD800 ≤ unit && unit ≤ 0xDBFF
def isLowSurrogate (unit : ℕ) : Bool := 0xDC00 ≤ unit && unit ≤ 0xDFFF

def joinSurrogates (high low : ℕ) : CodePoint :=
  Fin.ofNat 0x110000 (0x10000 + (high - 0xD800) * 0x400 + (low - 0xDC00))

/-- A low surrogate written as `\uXXXX`. -/
def readLowSurrogate : PyStr → Option (ℕ × PyStr)
  | c :: d :: rest =>
    if c = backslash ∧ d = letterU then
      (readHex4 rest).filter fun reading => isLowSurrogate reading.1
    else none
  | _ => none

/-- A code unit, joined with the next one if they are a pair. -/
def joinUnit (unit : ℕ) (rest : PyStr) : CodePoint × PyStr :=
  match if isHighSurrogate unit then readLowSurrogate rest else none with
  | some (low, rest) => (joinSurrogates unit low, rest)
  | none => (Fin.ofNat 0x110000 unit, rest)

/-- What follows `\u`. -/
def readUnicodeEscape (text : PyStr) : Option (CodePoint × PyStr) :=
  (readHex4 text).map fun reading => joinUnit reading.1 reading.2

/-- The escapes of one character. -/
def shortEscape (c : CodePoint) : Option CodePoint :=
  if c = doubleQuote ∨ c = backslash ∨ c = CodePoint.ofChar '/' then some c
  else if c = CodePoint.ofChar 'b' then some ⟨0x08, by decide⟩
  else if c = CodePoint.ofChar 'f' then some ⟨0x0C, by decide⟩
  else if c = CodePoint.ofChar 'n' then some (CodePoint.ofChar '\n')
  else if c = CodePoint.ofChar 'r' then some (CodePoint.ofChar '\r')
  else if c = CodePoint.ofChar 't' then some (CodePoint.ofChar '\t')
  else none

/-- What follows a backslash. -/
def readEscape : PyStr → Option (CodePoint × PyStr)
  | [] => none
  | c :: rest => if c = letterU then readUnicodeEscape rest else (shortEscape c).map (·, rest)

/-- A string up to its closing quote, in so many steps. -/
def scanString : ℕ → PyStr → Option (PyStr × PyStr)
  | 0, _ => none
  | _, [] => none
  | steps + 1, c :: rest =>
    if c = doubleQuote then some ([], rest)
    else if c = backslash then
      (readEscape rest).bind fun escape =>
        (scanString steps escape.2).map fun tail => (escape.1 :: tail.1, tail.2)
    else if c.val < 0x20 then none
    else (scanString steps rest).map fun tail => (c :: tail.1, tail.2)

/-- `scanstring`, after the opening quote. -/
def readString (text : PyStr) : Reading PyStr :=
  match scanString text.length text with
  | some reading => .ok reading
  | none => .error .decodeError

/-! ## Numbers -/

/-- The parts of a number as they are written. -/
structure NumberText where
  sign : PyStr
  whole : PyStr
  fraction : PyStr
  exponent : PyStr

def NumberText.text (number : NumberText) : PyStr :=
  number.sign ++ (number.whole ++ (number.fraction ++ number.exponent))

def splitSign (text : PyStr) : PyStr × PyStr :=
  if text.head? = some minusChar then ([minusChar], text.tail) else ([], text)

/-- A zero, or digits that do not begin with one. -/
def splitWhole : PyStr → Option (PyStr × PyStr)
  | [] => none
  | c :: rest =>
    if c = CodePoint.ofChar '0' then some ([c], rest)
    else if isDigit c then some (c :: rest.takeWhile isDigit, rest.dropWhile isDigit)
    else none

/-- A point and digits, if there are any. -/
def splitFraction : PyStr → PyStr × PyStr
  | [] => ([], [])
  | c :: rest =>
    if c = dotChar ∧ rest.takeWhile isDigit ≠ [] then
      (c :: rest.takeWhile isDigit, rest.dropWhile isDigit)
    else ([], c :: rest)

def isExponentSign (c : CodePoint) : Bool :=
  c = minusChar || c = CodePoint.ofChar '+'

def splitExponentSign : PyStr → PyStr × PyStr
  | [] => ([], [])
  | c :: rest => if isExponentSign c then ([c], rest) else ([], c :: rest)

/-- An exponent, if there is one with digits. -/
def splitExponent : PyStr → PyStr × PyStr
  | [] => ([], [])
  | c :: rest =>
    if (c = CodePoint.ofChar 'e' ∨ c = CodePoint.ofChar 'E') ∧
        (splitExponentSign rest).2.takeWhile isDigit ≠ [] then
      (c :: ((splitExponentSign rest).1 ++ (splitExponentSign rest).2.takeWhile isDigit),
        (splitExponentSign rest).2.dropWhile isDigit)
    else ([], c :: rest)

/-- The longest number at the beginning of a text. -/
def splitNumber (text : PyStr) : Option (NumberText × PyStr) :=
  (splitWhole (splitSign text).2).map fun split =>
    ({ sign := (splitSign text).1
       whole := split.1
       fraction := (splitFraction split.2).1
       exponent := (splitExponent (splitFraction split.2).2).1 },
      (splitExponent (splitFraction split.2).2).2)

/-- An integer of more digits than the interpreter converts. -/
def NumberText.TooLong (number : NumberText) : Prop :=
  number.fraction = [] ∧ number.exponent = [] ∧ maxIntDigits < number.whole.length

instance (number : NumberText) : Decidable number.TooLong :=
  inferInstanceAs (Decidable (_ ∧ _))

def NumberText.intValue (number : NumberText) : ℤ :=
  if number.sign = [] then Url.readDecimal number.whole else -Url.readDecimal number.whole

/-- `int(text)` or `float(text)`. -/
def NumberText.value (std : Stdlib) (number : NumberText) : Option Json :=
  if number.fraction = [] ∧ number.exponent = [] then some (.int number.intValue)
  else (std.floatOfText number.text).map .float

/-- `_match_number`. -/
def readNumber (std : Stdlib) (text : PyStr) : Reading Json :=
  match splitNumber text with
  | none => .error .decodeError
  | some (number, rest) =>
    if number.TooLong then .error .digitLimit
    else
      match number.value std with
      | some value => .ok (value, rest)
      | none => .error .decodeError

/-! ## Arrays and objects -/

section Elements

variable {β : Type} (element : PyStr → Reading β) (close : CodePoint)

/-- Elements separated by commas, up to the closing bracket, in so many steps. -/
def readSeparated : ℕ → PyStr → Reading (List β)
  | 0, _ => .error .decodeError
  | steps + 1, text =>
    match element text with
    | .error error => .error error
    | .ok (first, rest) =>
      match skipBlank rest with
      | [] => .error .decodeError
      | c :: rest =>
        if c = close then .ok ([first], rest)
        else if c = commaChar then
          match readSeparated steps (skipBlank rest) with
          | .error error => .error error
          | .ok (others, rest) => .ok (first :: others, rest)
        else .error .decodeError

/-- What follows an opening bracket. -/
def readEnclosed (text : PyStr) : Reading (List β) :=
  match skipBlank text with
  | [] => .error .decodeError
  | c :: rest =>
    if c = close then .ok ([], rest)
    else readSeparated element close (c :: rest).length (c :: rest)

end Elements

/-- A key, a colon and a value. -/
def readMember (scan : PyStr → Reading Json) : PyStr → Reading (PyStr × Json)
  | [] => .error .decodeError
  | c :: rest =>
    if c = doubleQuote then
      match readString rest with
      | .error error => .error error
      | .ok (key, rest) =>
        match skipBlank rest with
        | [] => .error .decodeError
        | d :: rest =>
          if d = colonChar then
            match scan (skipBlank rest) with
            | .error error => .error error
            | .ok (value, rest) => .ok ((key, value), rest)
          else .error .decodeError
    else .error .decodeError

def jsonConstants : List (PyStr × Json) :=
  [(py "null", .null), (py "true", .bool true), (py "false", .bool false),
    (py "NaN", .float .nan), (py "Infinity", .float (.inf false)),
    (py "-Infinity", .float (.inf true))]

/-- A constant or a number. -/
def readScalar (std : Stdlib) (text : PyStr) : Reading Json :=
  match jsonConstants.find? fun entry => entry.1.isPrefixOf text with
  | some (word, value) => .ok (value, text.drop word.length)
  | none => readNumber std text

def Reading.map {β γ : Type} (f : β → γ) (reading : Reading β) : Reading γ :=
  Except.map (Prod.map f id) reading

section Nested

variable (std : Stdlib) (nested : Option (PyStr → Reading Json))

/-- `_parse_object`, after the opening brace. -/
def readObject (text : PyStr) : Reading Json :=
  match nested with
  | none => .error .recursionLimit
  | some scan =>
    (readEnclosed (readMember scan) closeBrace text).map fun fields =>
      .obj (Dict.update [] fields)

/-- `_parse_array`, after the opening bracket. -/
def readArray (text : PyStr) : Reading Json :=
  match nested with
  | none => .error .recursionLimit
  | some scan => (readEnclosed scan closeBracket text).map .arr

/-- `scan_once`, where `nested` reads the values inside; without it nothing is
left of the interpreter's stack. -/
def scanValue : PyStr → Reading Json
  | [] => .error .decodeError
  | c :: rest =>
    if c = doubleQuote then (readString rest).map .str
    else if c = openBrace then readObject nested rest
    else if c = openBracket then readArray nested rest
    else readScalar std (c :: rest)

end Nested

/-- `scan_once` with room for so many nested arrays and objects. -/
def scanOnce (std : Stdlib) : ℕ → PyStr → Reading Json
  | 0 => scanValue std none
  | nesting + 1 => scanValue std (some (scanOnce std nesting))

def byteOrderMark : CodePoint := ⟨0xFEFF, by decide⟩

/-- `json.loads(text)`. -/
def loads (std : Stdlib) (nesting : ℕ) (text : PyStr) : Except LoadsError Json :=
  if text.head? = some byteOrderMark then .error .decodeError
  else
    match scanOnce std nesting (skipBlank text) with
    | .error error => .error error
    | .ok (value, rest) => if skipBlank rest = [] then .ok value else .error .decodeError

end RootSeeker.Python
