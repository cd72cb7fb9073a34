import RootSeeker.Python.Json

/-!
# Printing Python values

`repr` and `str` of the values that `json.loads` returns.  Which characters
count as printable and how a float is printed are parameters.  The interpreter's
limits on the digits of an integer and on nesting are not modelled.
-/

namespace RootSeeker.Python

/-- The lower-case hexadecimal digit of `n % 16`. -/
def hexDigit (n : ℕ) : CodePoint :=
  if h : n % 16 < 10 then ⟨0x30 + n % 16, by omega⟩ else ⟨0x57 + n % 16, by omega⟩

/-- The last `width` hexadecimal digits of `n`. -/
def hex : ℕ → ℕ → PyStr
  | 0, _ => []
  | width + 1, n => hex width (n / 16) ++ [hexDigit n]

def apostrophe : CodePoint := CodePoint.ofChar '\''
def doubleQuote : CodePoint := CodePoint.ofChar '"'
def backslash : CodePoint := CodePoint.ofChar '\\'

/-- `str.isprintable` outside ASCII. -/
def isPrintable (std : Stdlib) (c : CodePoint) : Bool :=
  !isSurrogate c && std.printable c

/-- One character of a string literal that is enclosed in `quote`. -/
def escapeChar (std : Stdlib) (quote c : CodePoint) : PyStr :=
  if c = quote ∨ c = backslash then [backslash, c]
  else if c = CodePoint.ofChar '\t' then [backslash, CodePoint.ofChar 't']
  else if c = CodePoint.ofChar '\n' then [backslash, CodePoint.ofChar 'n']
  else if c = CodePoint.ofChar '\r' then [backslash, CodePoint.ofChar 'r']
  else if c.val < 0x20 ∨ c.val = 0x7F then
    [backslash, CodePoint.ofChar 'x'] ++ hex 2 c.val
  else if c.val < 0x7F then [c]
  else if isPrintable std c then [c]
  else if c.val ≤ 0xFF then [backslash, CodePoint.ofChar 'x'] ++ hex 2 c.val
  else if c.val ≤ 0xFFFF then [backslash, CodePoint.ofChar 'u'] ++ hex 4 c.val
  else [backslash, CodePoint.ofChar 'U'] ++ hex 8 c.val

/-- Apostrophes, unless the text has an apostrophe and no double quote. -/
def quoteFor (text : PyStr) : CodePoint :=
  if apostrophe ∈ text ∧ doubleQuote ∉ text then doubleQuote else apostrophe

/-- `repr` of a string. -/
def reprText (std : Stdlib) (text : PyStr) : PyStr :=
  quoteFor text ::
    (text.flatMap (escapeChar std (quoteFor text)) ++ [quoteFor text])

mutual

def repr (std : Stdlib) : Json → PyStr
  | .null => py "None"
  | .bool true => py "True"
  | .bool false => py "False"
  | .int value => intText value
  | .float value => std.floatRepr value
  | .str value => reprText std value
  | .arr items => py "[" ++ join (py ", ") (reprItems std items) ++ py "]"
  | .obj fields => py "\x7b" ++ join (py ", ") (reprFields std fields) ++ py "\x7d"

def reprItems (std : Stdlib) : List Json → List PyStr
  | [] => []
  | item :: rest => repr std item :: reprItems std rest

def reprFields (std : Stdlib) : List (PyStr × Json) → List PyStr
  | [] => []
  | (key, value) :: rest => (reprText std key ++ py ": " ++ repr std value) :: reprFields std rest

end

/-- `str` prints a string as itself and every other value as `repr`. -/
def str (std : Stdlib) : Json → PyStr
  | .str value => value
  | value => repr std value

/-- `str(first or second or ... or "")`, where a missing key reads as `None`. -/
def truthyText (std : Stdlib) (candidates : List (Option Json)) : PyStr :=
  match candidates.findSome? (Option.filter Json.truthy) with
  | none => []
  | some value => str std value

theorem truthyText_none (std : Stdlib) (rest : List (Option Json)) :
    truthyText std (none :: rest) = truthyText std rest := rfl

theorem truthyText_empty (std : Stdlib) (rest : List (Option Json)) :
    truthyText std (some (.str []) :: rest) = truthyText std rest := rfl

theorem truthyText_text (std : Stdlib) {text : PyStr} (htext : text ≠ [])
    (rest : List (Option Json)) : truthyText std (some (.str text) :: rest) = text := by
  have htruthy : Option.filter Json.truthy (some (.str text)) = some (.str text) :=
    Option.filter_some_pos (by simpa [Json.truthy] using htext)
  rw [truthyText, List.findSome?_cons, htruthy]
  rfl

theorem truthyText_truthy (std : Stdlib) {value : Json} (htruthy : value.truthy = true)
    (rest : List (Option Json)) : truthyText std (some value :: rest) = str std value := by
  rw [truthyText, List.findSome?_cons, Option.filter_some_pos htruthy]

theorem truthyText_falsy (std : Stdlib) {value : Json} (hfalsy : value.truthy = false)
    (rest : List (Option Json)) : truthyText std (some value :: rest) = truthyText std rest := by
  rw [truthyText, List.findSome?_cons, Option.filter_some_neg (by simp [hfalsy])]
  rfl

/-- A text that is not empty is the first candidate of a longer list as well. -/
theorem truthyText_cons_of_ne_nil {std : Stdlib} {first : Option Json}
    (rest : List (Option Json)) (hne : truthyText std [first] ≠ []) :
    truthyText std (first :: rest) = truthyText std [first] := by
  unfold truthyText at hne ⊢
  cases htruthy : Option.filter Json.truthy first with
  | none => exact absurd (by simp [htruthy]) hne
  | some value => simp [htruthy]

/-- A standard library without decoders, for runs on fixed inputs: only ASCII
is printable, and a finite float shows its numerator and denominator. -/
def asciiStdlib : Stdlib where
  jsonLoads _ := none
  floatOfText _ := none
  floatRepr
    | .nan => py "nan"
    | .inf false => py "inf"
    | .inf true => py "-inf"
    | .finite false magnitude => decimal magnitude.num ++ py "." ++ decimal magnitude.den
    | .finite true magnitude => py "-" ++ decimal magnitude.num ++ py "." ++ decimal magnitude.den
  printable _ := false
  lowerNonAscii c := [c]

/-- The same library, which decodes one text. -/
def decodingStdlib (content : PyStr) (value : Json) : Stdlib :=
  { asciiStdlib with jsonLoads := fun text => if text = content then some value else none }

end RootSeeker.Python
