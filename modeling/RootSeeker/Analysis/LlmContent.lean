import RootSeeker.Contracts.Common

/-!
# The text of a language model

What the planner and the report client share: finding the JSON object in a text
that may be fenced or embedded in prose, and reading a number from any JSON
value.
-/

namespace RootSeeker.Analysis

open Python Contracts

/-! ## Finding the JSON object -/

/-- The letters of `json` as the pattern `(?:json)?` matches them, case ignored. -/
def jsonLetters : List (List CodePoint) :=
  [py "jJ", py "sSſ", py "oO", py "nN"]

/-- Drop one character of each class, if all are there. -/
def dropJsonWord (text : PyStr) : PyStr :=
  if text.length < 4 then text
  else if (text.zip jsonLetters).all fun pair => pair.1 ∈ pair.2 then text.drop 4
  else text

def fence : PyStr := py "\x60\x60\x60"

/-- The substitution of an opening and of a closing fence by nothing. -/
def stripCodeFence (text : PyStr) : PyStr :=
  if fence.isPrefixOf text then
    let opened := (dropJsonWord (text.drop 3)).dropWhile isSpace
    let closed :=
      if fence.isSuffixOf opened then
        (opened.take (opened.length - 3)).rdropWhile isSpace
      else opened
    strip closed
  else text

/-- From the first opening brace to the last closing one. -/
def firstJsonObject (text : PyStr) : Option PyStr :=
  let opened := text.dropWhile (· ≠ CodePoint.ofChar '{')
  let closed := opened.rdropWhile (· ≠ CodePoint.ofChar '}')
  if closed = [] then none else some closed

/-- `json.loads` of a candidate that is not empty, if it gives an object. -/
def loadObject (std : Stdlib) (candidate : PyStr) : Option Fields :=
  if candidate = [] then none
  else
    match std.jsonLoads candidate with
    | some (.obj fields) => some fields
    | _ => none

/-- `_parse_json_object` of the planner and `parse_llm_report_content` of the
report client. -/
def parseJsonObject (std : Stdlib) (content : PyStr) : Option Fields :=
  let text := stripCodeFence (strip content)
  (loadObject std text).or ((firstJsonObject text).bind (loadObject std))

/-! ## Numbers -/

/-- A value for which `float` raises `OverflowError`. -/
def OverflowsDouble (value : Option Json) : Prop :=
  ∃ n, value = some (.int n) ∧ TooLargeForDouble n

/-- `float(value)`, with `TypeError` and `ValueError` read as `none`.  Nobody
expects the `OverflowError` of an integer that is too large. -/
def tryFloat (std : Stdlib) (value : Option Json) :
    Except PyError (Option PyFloat) :=
  match value with
  | some (.bool flag) => .ok (some (.finite false (if flag then 1 else 0)))
  | some (.int n) => (floatOfInt n).elim (.error .overflowError) fun number => .ok (some number)
  | some (.float number) => .ok (some number)
  | some (.str text) => .ok (std.floatOfText text)
  | _ => .ok none

theorem tryFloat_of_overflows {std : Stdlib} {value : Option Json}
    (hoverflows : OverflowsDouble value) : tryFloat std value = .error .overflowError := by
  obtain ⟨n, rfl, hlarge⟩ := hoverflows
  rw [tryFloat, floatOfInt_of_tooLarge hlarge]
  rfl

theorem exists_tryFloat_of_not_overflows (std : Stdlib) {value : Option Json}
    (hfits : ¬OverflowsDouble value) : ∃ number, tryFloat std value = .ok number := by
  unfold tryFloat
  split
  · exact ⟨_, rfl⟩
  · rename_i n
    have hn : ¬TooLargeForDouble n := fun hlarge => hfits ⟨n, rfl, hlarge⟩
    rw [floatOfInt_of_not_tooLarge hn]
    exact ⟨_, rfl⟩
  · exact ⟨_, rfl⟩
  · exact ⟨_, rfl⟩
  · exact ⟨_, rfl⟩

end RootSeeker.Analysis
