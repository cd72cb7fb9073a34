import RootSeeker.Core.Dict
import RootSeeker.Python.Text

/-!
# JSON values as Python objects

`json.loads` returns dictionaries, lists, strings, integers of any size,
floats (NaN and the infinities included), booleans and `None`.  This module
defines these values, the coercions the modelled code applies to them, and the
parts of the standard library that stay parameters: decoding JSON, reading a
float from text, printing a float and the character tables of Unicode.
-/

namespace RootSeeker.Python

/-- A Python float.  Finite values keep their sign apart, so that `-0.0` and
`0.0` differ. -/
inductive PyFloat where
  | nan
  | inf (negative : Bool)
  | finite (negative : Bool) (magnitude : ℚ≥0)
  deriving DecidableEq

inductive Json where
  | null
  | bool (value : Bool)
  | int (value : ℤ)
  | float (value : PyFloat)
  | str (value : PyStr)
  | arr (items : List Json)
  | obj (fields : List (PyStr × Json))

abbrev Fields := Dict PyStr Json

/-- The standard-library functions that are not defined here. -/
structure Stdlib where
  /-- `json.loads`; `none` stands for `JSONDecodeError`. -/
  jsonLoads : PyStr → Option Json
  /-- `float(text)`; `none` stands for `ValueError`. -/
  floatOfText : PyStr → Option PyFloat
  /-- `repr` of a float. -/
  floatRepr : PyFloat → PyStr
  /-- `str.isprintable` on characters that are neither ASCII nor surrogates. -/
  printable : CodePoint → Bool
  /-- `str.lower` on characters outside ASCII. -/
  lowerNonAscii : CodePoint → PyStr

namespace PyFloat

/-- Python truthiness: only the two zeros are false. -/
def truthy : PyFloat → Bool
  | finite _ magnitude => magnitude ≠ 0
  | _ => true

/-- `value <= 0`. -/
def nonPositive : PyFloat → Bool
  | nan => false
  | inf negative => negative
  | finite negative magnitude => negative || magnitude = 0

end PyFloat

/-- Round a natural number to 53 significant bits, ties to even. -/
def roundToDouble (n : ℕ) : ℕ :=
  if n < 2 ^ 53 then n
  else
    let unit := 2 ^ (n.log2 - 52)
    let quotient := n / unit
    let rest := n % unit
    if unit < 2 * rest ∨ (unit = 2 * rest ∧ quotient % 2 = 1) then
      (quotient + 1) * unit
    else quotient * unit

/-- The integers for which `float` raises `OverflowError`: those that round
beyond the largest double. -/
def TooLargeForDouble (n : ℤ) : Prop :=
  2 ^ 1024 - 2 ^ 970 ≤ n.natAbs

instance (n : ℤ) : Decidable (TooLargeForDouble n) :=
  inferInstanceAs (Decidable (_ ≤ _))

def floatOfInt (n : ℤ) : Option PyFloat :=
  if TooLargeForDouble n then none
  else some (PyFloat.finite (n < 0) (roundToDouble n.natAbs))

theorem floatOfInt_of_tooLarge {n : ℤ} (hlarge : TooLargeForDouble n) : floatOfInt n = none := by
  rw [floatOfInt, if_pos hlarge]

theorem floatOfInt_of_not_tooLarge {n : ℤ} (hfits : ¬TooLargeForDouble n) :
    floatOfInt n = some (PyFloat.finite (n < 0) (roundToDouble n.natAbs)) := by
  rw [floatOfInt, if_neg hfits]

namespace Json

/-- Induction with one hypothesis for each item and for each field. -/
@[elab_as_elim]
theorem induction {motive : Json → Prop} (null : motive .null)
    (bool : ∀ value, motive (.bool value)) (int : ∀ value, motive (.int value))
    (float : ∀ value, motive (.float value)) (str : ∀ value, motive (.str value))
    (arr : ∀ items, (∀ item ∈ items, motive item) → motive (.arr items))
    (obj : ∀ fields, (∀ entry ∈ fields, motive entry.2) → motive (.obj fields))
    (value : Json) : motive value :=
  @Json.rec motive (fun items => ∀ item ∈ items, motive item)
    (fun fields => ∀ entry ∈ fields, motive entry.2) (fun entry => motive entry.2)
    null bool int float str arr obj
    (fun _ hitem => absurd hitem List.not_mem_nil)
    (fun _ _ hhead hrest => List.forall_mem_cons.mpr ⟨hhead, hrest⟩)
    (fun _ hentry => absurd hentry List.not_mem_nil)
    (fun _ _ hhead hrest => List.forall_mem_cons.mpr ⟨hhead, hrest⟩)
    (fun _ _ hvalue => hvalue) value

/-- Python truthiness of a decoded value. -/
def truthy : Json → Bool
  | null => false
  | bool value => value
  | int value => value ≠ 0
  | float value => value.truthy
  | str value => value ≠ []
  | arr items => !items.isEmpty
  | obj fields => !fields.isEmpty

end Json

/-- `text.lower()`. -/
def lower (std : Stdlib) (text : PyStr) : PyStr :=
  text.flatMap fun c =>
    if isAscii c then
      if h : 0x41 ≤ c.val ∧ c.val ≤ 0x5A then [⟨c.val + 0x20, by omega⟩] else [c]
    else std.lowerNonAscii c

end RootSeeker.Python
