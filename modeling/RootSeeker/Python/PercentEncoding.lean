import RootSeeker.Python.Utf8

/-!
# Percent encoding

`urllib.parse.quote(text, safe="")` and the bytes that a percent-encoded text
stands for.
-/

namespace RootSeeker.Python

open Base64

def percent : CodePoint := CodePoint.ofChar '%'

theorem digit_lt {n : ℕ} (h : n % 16 < 10) : 0x30 + n % 16 < 0x110000 := by omega

theorem letter_lt (n : ℕ) : 0x37 + n % 16 < 0x110000 := by omega

theorem byte_lt (byte : Byte) : byte.val < 0x110000 := by omega

/-- The upper-case hexadecimal digit of `n % 16`. -/
def upperHexDigit (n : ℕ) : CodePoint :=
  if h : n % 16 < 10 then ⟨0x30 + n % 16, digit_lt h⟩ else ⟨0x37 + n % 16, letter_lt n⟩

/-- Letters, digits, `-`, `.`, `_` and `~`, the characters that are never quoted. -/
def isUnreserved (n : ℕ) : Bool :=
  (0x30 ≤ n && n ≤ 0x39) || (0x41 ≤ n && n ≤ 0x5A) || (0x61 ≤ n && n ≤ 0x7A) ||
    n = 0x2D || n = 0x2E || n = 0x5F || n = 0x7E

def quoteByte (byte : Byte) : PyStr :=
  if isUnreserved byte.val then [⟨byte.val, byte_lt byte⟩]
  else [percent, upperHexDigit (byte.val / 16), upperHexDigit byte.val]

/-- `quote(text, safe="")`; nothing for a `UnicodeEncodeError`. -/
def quote (text : PyStr) : Option PyStr :=
  if Encodable text then some ((utf8 text).flatMap quoteByte) else none

def hexValue (c : CodePoint) : Option ℕ :=
  if 0x30 ≤ c.val ∧ c.val ≤ 0x39 then some (c.val - 0x30)
  else if 0x41 ≤ c.val ∧ c.val ≤ 0x46 then some (c.val - 0x37)
  else if 0x61 ≤ c.val ∧ c.val ≤ 0x66 then some (c.val - 0x57)
  else none

/-- The byte that a percent sign followed by these two characters stands for. -/
def escapedByte (c high low : CodePoint) : Option Byte :=
  if c = percent then
    (hexValue high).bind fun high => (hexValue low).map fun low => Fin.ofNat 256 (high * 16 + low)
  else none

/-- The bytes that a percent-encoded text stands for. -/
def percentBytes : PyStr → List Byte
  | c :: high :: low :: rest =>
    match escapedByte c high low with
    | some byte => byte :: percentBytes rest
    | none => utf8Char c ++ percentBytes (high :: low :: rest)
  | c :: rest => utf8Char c ++ percentBytes rest
  | [] => []

/-- The text that a percent-encoded text stands for; nothing where its bytes are no UTF-8. -/
def percentDecode (text : PyStr) : Option PyStr :=
  utf8Decode (percentBytes text)

theorem hexValue_upperHexDigit (n : ℕ) : hexValue (upperHexDigit n) = some (n % 16) := by
  rw [upperHexDigit, hexValue]
  split
  · next hdigit => rw [if_pos ⟨Nat.le_add_right _ _, by simp only; omega⟩, Nat.add_sub_cancel_left]
  · next hletter =>
    rw [if_neg (by simp only; omega), if_pos ⟨by simp only; omega, by simp only; omega⟩,
      Nat.add_sub_cancel_left]

theorem percentBytes_of_ne {c : CodePoint} (hc : c ≠ percent) (rest : PyStr) :
    percentBytes (c :: rest) = utf8Char c ++ percentBytes rest := by
  match rest with
  | [] => rfl
  | [_] => rfl
  | _ :: _ :: _ => rw [percentBytes, escapedByte, if_neg hc]

theorem percentBytes_quoteByte (byte : Byte) (rest : PyStr) :
    percentBytes (quoteByte byte ++ rest) = byte :: percentBytes rest := by
  rw [quoteByte]
  split
  · next hplain =>
    simp only [isUnreserved, Bool.or_eq_true, Bool.and_eq_true, decide_eq_true_eq] at hplain
    have hpercent : (⟨byte.val, by omega⟩ : CodePoint) ≠ percent := by
      intro heq
      have hval : byte.val = 0x25 := congrArg (fun c : CodePoint => c.val) heq
      omega
    rw [List.singleton_append, percentBytes_of_ne hpercent, utf8Char, if_pos (by simp only; omega)]
    exact congrArg (· :: percentBytes rest) (Fin.ext (Nat.mod_eq_of_lt byte.isLt))
  · have hescaped : escapedByte percent (upperHexDigit (byte.val / 16)) (upperHexDigit byte.val) =
        some byte := by
      rw [escapedByte, if_pos rfl, hexValue_upperHexDigit, hexValue_upperHexDigit, Option.bind_some,
        Option.map_some]
      refine congrArg some (Fin.ext ?_)
      have hlt := byte.isLt
      rw [Fin.val_ofNat]
      omega
    rw [List.cons_append, List.cons_append, List.singleton_append, percentBytes, hescaped]

theorem percentBytes_quoted (bytes : List Byte) :
    percentBytes (bytes.flatMap quoteByte) = bytes := by
  induction bytes with
  | nil => rfl
  | cons byte bytes ih => rw [List.flatMap_cons, percentBytes_quoteByte, ih]

/-- Decoding inverts quoting. -/
theorem percentDecode_quote {text quoted : PyStr} (hquoted : quote text = some quoted) :
    percentDecode quoted = some text := by
  rw [quote] at hquoted
  split at hquoted
  · next hencodable =>
    rw [← Option.some.inj hquoted, percentDecode, percentBytes_quoted, utf8Decode_utf8 hencodable]
  · exact absurd hquoted (by simp)

/-- A quoted text consists of unreserved characters and percent signs. -/
def isQuotedChar (c : CodePoint) : Bool :=
  isUnreserved c.val || c = percent

theorem isQuotedChar_upperHexDigit (n : ℕ) : isQuotedChar (upperHexDigit n) = true := by
  rw [isQuotedChar, Bool.or_eq_true]
  left
  rw [upperHexDigit]
  split <;>
    · simp only [isUnreserved, Bool.or_eq_true, Bool.and_eq_true, decide_eq_true_eq]
      omega

theorem isQuotedChar_of_mem_quote {text quoted : PyStr} (hquoted : quote text = some quoted)
    {c : CodePoint} (hc : c ∈ quoted) : isQuotedChar c = true := by
  rw [quote] at hquoted
  split at hquoted
  · obtain rfl := Option.some.inj hquoted
    obtain ⟨byte, _, hbyte⟩ := List.mem_flatMap.mp hc
    rw [quoteByte] at hbyte
    split at hbyte
    · next hplain =>
      obtain rfl := List.mem_singleton.mp hbyte
      rw [isQuotedChar, hplain, Bool.true_or]
    · simp only [List.mem_cons, List.not_mem_nil, or_false] at hbyte
      rcases hbyte with rfl | rfl | rfl
      · decide
      · exact isQuotedChar_upperHexDigit _
      · exact isQuotedChar_upperHexDigit _
  · exact absurd hquoted (by simp)

end RootSeeker.Python
