import RootSeeker.Core.Framing
import RootSeeker.Python.Repr
import RootSeeker.Python.Utf8

/-!
# JSON texts and their size

`json.dumps(value, ensure_ascii=False)` and the number of bytes its UTF-8
encoding takes.  The size of an object is a sum over its fields, so replacing
one value changes it by what the two values take.
-/

namespace RootSeeker.Python

/-- One character of a string literal: only what JSON requires is escaped. -/
def escapeJsonChar (c : CodePoint) : PyStr :=
  if c = doubleQuote ∨ c = backslash then [backslash, c]
  else if c = CodePoint.ofChar '\n' then [backslash, CodePoint.ofChar 'n']
  else if c = CodePoint.ofChar '\r' then [backslash, CodePoint.ofChar 'r']
  else if c = CodePoint.ofChar '\t' then [backslash, CodePoint.ofChar 't']
  else if c.val = 0x0C then [backslash, CodePoint.ofChar 'f']
  else if c.val = 0x08 then [backslash, CodePoint.ofChar 'b']
  else if c.val < 0x20 then [backslash, CodePoint.ofChar 'u'] ++ hex 4 c.val
  else [c]

def jsonString (text : PyStr) : PyStr :=
  doubleQuote :: (text.flatMap escapeJsonChar ++ [doubleQuote])

def jsonFloat (std : Stdlib) : PyFloat → PyStr
  | .nan => py "NaN"
  | .inf false => py "Infinity"
  | .inf true => py "-Infinity"
  | value => std.floatRepr value

mutual

/-- `json.dumps(value, ensure_ascii=False)`. -/
def dumps (std : Stdlib) : Json → PyStr
  | .null => py "null"
  | .bool true => py "true"
  | .bool false => py "false"
  | .int value => intText value
  | .float value => jsonFloat std value
  | .str value => jsonString value
  | .arr items => py "[" ++ join (py ", ") (dumpsItems std items) ++ py "]"
  | .obj fields => py "\x7b" ++ join (py ", ") (dumpsFields std fields) ++ py "\x7d"

def dumpsItems (std : Stdlib) : List Json → List PyStr
  | [] => []
  | item :: rest => dumps std item :: dumpsItems std rest

def dumpsFields (std : Stdlib) : List (PyStr × Json) → List PyStr
  | [] => []
  | (key, value) :: rest => (jsonString key ++ py ": " ++ dumps std value) :: dumpsFields std rest

end

/-- `len(json.dumps(value, ensure_ascii=False).encode("utf-8"))`. -/
def encodedSize (std : Stdlib) (value : Json) : ℕ :=
  (utf8 (dumps std value)).length

theorem length_utf8_append (left right : PyStr) :
    (utf8 (left ++ right)).length = (utf8 left).length + (utf8 right).length := by
  rw [utf8, List.flatMap_append, List.length_append]
  rfl

/-- The bytes that a field takes, with the separators around it. -/
def fieldSize (std : Stdlib) (field : PyStr × Json) : ℕ :=
  (utf8 (jsonString field.1)).length + encodedSize std field.2 + 4

theorem dumpsFields_eq_map (std : Stdlib) (fields : Fields) :
    dumpsFields std fields =
      fields.map fun field => jsonString field.1 ++ py ": " ++ dumps std field.2 := by
  induction fields with
  | nil => rfl
  | cons field rest ih => rw [dumpsFields, ih, List.map_cons]

theorem length_utf8_separated (pieces : List PyStr) :
    (utf8 (pieces.flatMap (py ", " ++ ·))).length =
      (pieces.map fun piece => (utf8 piece).length + 2).sum := by
  induction pieces with
  | nil => rfl
  | cons piece rest ih =>
    have hcomma : (utf8 (py ", ")).length = 2 := by decide
    rw [List.flatMap_cons, length_utf8_append, ih, length_utf8_append, hcomma, List.map_cons,
      List.sum_cons]
    omega

/-- The size of an object is the sum over its fields. -/
theorem encodedSize_obj (std : Stdlib) {fields : Fields} (hne : fields ≠ []) :
    encodedSize std (.obj fields) = (fields.map (fieldSize std)).sum := by
  cases fields with
  | nil => exact absurd rfl hne
  | cons field rest =>
    have hopen : (utf8 (py "\x7b")).length = 1 := by decide
    have hclose : (utf8 (py "\x7d")).length = 1 := by decide
    have hcolon : (utf8 (py ": ")).length = 2 := by decide
    have hfield : ∀ field : PyStr × Json,
        (utf8 (jsonString field.1 ++ py ": " ++ dumps std field.2)).length + 2 =
          fieldSize std field := by
      intro field
      rw [length_utf8_append, length_utf8_append, hcolon, fieldSize, encodedSize]
      omega
    rw [encodedSize, dumps, dumpsFields_eq_map, List.map_cons, join,
      Framing.intercalate_cons, length_utf8_append, length_utf8_append, length_utf8_append,
      length_utf8_separated, List.map_map, List.map_cons, List.sum_cons, hopen, hclose,
      ← hfield field]
    have hrest : (rest.map ((fun piece => (utf8 piece).length + 2) ∘ fun field =>
        jsonString field.1 ++ py ": " ++ dumps std field.2)) = rest.map (fieldSize std) :=
      List.map_congr_left fun field _ => hfield field
    rw [hrest]
    omega

/-- The bytes between the quotes of a string literal. -/
def literalSize (text : PyStr) : ℕ :=
  (utf8 (text.flatMap escapeJsonChar)).length

theorem encodedSize_str (std : Stdlib) (text : PyStr) :
    encodedSize std (.str text) = literalSize text + 2 := by
  have hquote : (utf8 [doubleQuote]).length = 1 := by decide
  rw [encodedSize, dumps, jsonString, ← List.singleton_append, length_utf8_append,
    length_utf8_append, hquote, literalSize]
  omega

theorem literalSize_append (left right : PyStr) :
    literalSize (left ++ right) = literalSize left + literalSize right := by
  rw [literalSize, List.flatMap_append, length_utf8_append]
  rfl

theorem literalSize_of_isDigit {text : PyStr} (hdigits : ∀ c ∈ text, isDigit c = true) :
    literalSize text = text.length := by
  induction text with
  | nil => rfl
  | cons c rest ih =>
    have hc := hdigits c List.mem_cons_self
    simp only [isDigit, Bool.and_eq_true, decide_eq_true_eq] at hc
    have hescape : escapeJsonChar c = [c] := by
      have hne : ∀ d : CodePoint, d.val < 0x30 ∨ 0x39 < d.val → c ≠ d := by
        rintro d hd rfl
        omega
      rw [escapeJsonChar, if_neg (not_or.mpr ⟨hne _ (by decide), hne _ (by decide)⟩),
        if_neg (hne _ (by decide)), if_neg (hne _ (by decide)), if_neg (hne _ (by decide)),
        if_neg (by omega), if_neg (by omega), if_neg (by omega)]
    have hbyte : literalSize [c] = 1 := by
      rw [literalSize, List.flatMap_singleton, hescape, utf8, List.flatMap_singleton, utf8Char,
        if_pos (by omega)]
      rfl
    rw [← List.singleton_append, literalSize_append, hbyte,
      ih fun d hd => hdigits d (List.mem_cons_of_mem c hd), List.length_append]
    rfl

end RootSeeker.Python
