import RootSeeker.Contracts.Common
import RootSeeker.Python.Repr

/-!
# Integers from decoded values

`int(value)` as the code applies it to values of a JSON document.
-/

namespace RootSeeker.Contracts

open Python

/-- The standard library with `int(text)`; `none` stands for `ValueError`. -/
structure NumberStdlib extends Stdlib where
  intOfText : PyStr → Option ℤ

/-- `int(value)` of a value that is not falsy. -/
def intOf (std : NumberStdlib) (value : Json) : Except PyError ℤ :=
  match value with
  | .bool flag => .ok (if flag then 1 else 0)
  | .int n => .ok n
  | .float (.finite negative magnitude) =>
    .ok (if negative then -(⌊magnitude⌋₊ : ℤ) else ⌊magnitude⌋₊)
  | .float (.inf _) => .error .overflowError
  | .float .nan => .error (.valueError (py "cannot convert float NaN to integer"))
  | .str text =>
    (std.intOfText text).elim
      (.error (.valueError (py "invalid literal for int() with base 10"))) .ok
  | _ => .error .typeError

/-- `int(fields.get(key) or 0)`. -/
def intOrZero (std : NumberStdlib) (fields : Fields) (key : PyStr) : Except PyError ℤ :=
  match (fields.get? key).filter Json.truthy with
  | none => .ok 0
  | some value => intOf std value

/-- A standard library without decoders and with no integers in texts, for runs on
fixed inputs. -/
def numberStdlib : NumberStdlib :=
  { asciiStdlib with intOfText := fun _ => none }

end RootSeeker.Contracts
