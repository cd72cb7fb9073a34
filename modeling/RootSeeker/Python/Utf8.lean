import RootSeeker.Core.Base64
import RootSeeker.Python.Text

/-!
# UTF-8

`text.encode()` of a text without surrogates, the strict `bytes.decode()`, and
`bytes.decode(errors="replace")`.
-/

namespace RootSeeker.Python

open Base64

def utf8Char (c : CodePoint) : List Byte :=
  if c.val < 0x80 then [Fin.ofNat 256 c.val]
  else if c.val < 0x800 then
    [Fin.ofNat 256 (0xC0 + c.val / 64), Fin.ofNat 256 (0x80 + c.val % 64)]
  else if c.val < 0x10000 then
    [Fin.ofNat 256 (0xE0 + c.val / 4096), Fin.ofNat 256 (0x80 + c.val / 64 % 64),
      Fin.ofNat 256 (0x80 + c.val % 64)]
  else
    [Fin.ofNat 256 (0xF0 + c.val / 262144), Fin.ofNat 256 (0x80 + c.val / 4096 % 64),
      Fin.ofNat 256 (0x80 + c.val / 64 % 64), Fin.ofNat 256 (0x80 + c.val % 64)]

def utf8 (text : PyStr) : List Byte :=
  text.flatMap utf8Char

/-- A code point that is no surrogate and needs as many bytes as it took. -/
def checkedCodePoint (lower n : ℕ) : Option CodePoint :=
  if h : n < 0x110000 then
    if lower ≤ n ∧ isSurrogate ⟨n, h⟩ = false then some ⟨n, h⟩ else none
  else none

/-- Decode with so many continuation bytes owed to the number `acc`, which has to
reach `lower`; nothing for a `UnicodeDecodeError`. -/
def utf8DecodeFrom : ℕ → ℕ → ℕ → List Byte → Option PyStr
  | 0, _, _, [] => some []
  | _ + 1, _, _, [] => none
  | 0, _, _, byte :: rest =>
    if byte.val < 0x80 then
      (checkedCodePoint 0 byte.val).bind fun c => (utf8DecodeFrom 0 0 0 rest).map (c :: ·)
    else if byte.val < 0xC0 then none
    else if byte.val < 0xE0 then utf8DecodeFrom 1 0x80 (byte.val - 0xC0) rest
    else if byte.val < 0xF0 then utf8DecodeFrom 2 0x800 (byte.val - 0xE0) rest
    else if byte.val < 0xF8 then utf8DecodeFrom 3 0x10000 (byte.val - 0xF0) rest
    else none
  | 1, lower, acc, byte :: rest =>
    if 0x80 ≤ byte.val ∧ byte.val < 0xC0 then
      (checkedCodePoint lower (acc * 64 + (byte.val - 0x80))).bind fun c =>
        (utf8DecodeFrom 0 0 0 rest).map (c :: ·)
    else none
  | owed + 2, lower, acc, byte :: rest =>
    if 0x80 ≤ byte.val ∧ byte.val < 0xC0 then
      utf8DecodeFrom (owed + 1) lower (acc * 64 + (byte.val - 0x80)) rest
    else none

def utf8Decode (bytes : List Byte) : Option PyStr :=
  utf8DecodeFrom 0 0 0 bytes

variable {n : ℕ} {c : CodePoint} {text : PyStr}

theorem checkedCodePoint_self {lower : ℕ} (hlower : lower ≤ c.val)
    (hencodable : isSurrogate c = false) : checkedCodePoint lower c.val = some c := by
  rw [checkedCodePoint, dif_pos c.isLt]
  exact if_pos ⟨hlower, hencodable⟩

theorem val_byte (hn : n < 256) : (Fin.ofNat 256 n).val = n :=
  Nat.mod_eq_of_lt hn

theorem utf8DecodeFrom_last {lower acc : ℕ} (hlower : lower ≤ c.val)
    (hencodable : isSurrogate c = false) (hn : n < 64) (hc : acc * 64 + n = c.val)
    (rest : List Byte) :
    utf8DecodeFrom 1 lower acc (Fin.ofNat 256 (0x80 + n) :: rest) =
      (utf8DecodeFrom 0 0 0 rest).map (c :: ·) := by
  rw [utf8DecodeFrom, val_byte (by omega), if_pos (by omega), Nat.add_sub_cancel_left, hc,
    checkedCodePoint_self hlower hencodable]
  rfl

theorem utf8DecodeFrom_tail {owed lower acc : ℕ} (hn : n < 64) (rest : List Byte) :
    utf8DecodeFrom (owed + 2) lower acc (Fin.ofNat 256 (0x80 + n) :: rest) =
      utf8DecodeFrom (owed + 1) lower (acc * 64 + n) rest := by
  rw [utf8DecodeFrom, val_byte (by omega), if_pos (by omega), Nat.add_sub_cancel_left]

/-- The bytes of one code point decode to it. -/
theorem utf8DecodeFrom_char (hencodable : isSurrogate c = false) (rest : List Byte) :
    utf8DecodeFrom 0 0 0 (utf8Char c ++ rest) = (utf8DecodeFrom 0 0 0 rest).map (c :: ·) := by
  have hbound : c.val < 0x110000 := c.isLt
  rw [utf8Char]
  split
  · rw [List.singleton_append, utf8DecodeFrom, val_byte (by omega), if_pos (by omega),
      checkedCodePoint_self (Nat.zero_le _) hencodable]
    rfl
  · split
    · rw [List.cons_append, List.singleton_append, utf8DecodeFrom, val_byte (by omega),
        if_neg (by omega), if_neg (by omega), if_pos (by omega), Nat.add_sub_cancel_left]
      exact utf8DecodeFrom_last (by omega) hencodable (by omega) (by omega) rest
    · split
      · rw [List.cons_append, List.cons_append, List.singleton_append, utf8DecodeFrom,
          val_byte (by omega), if_neg (by omega), if_neg (by omega), if_neg (by omega),
          if_pos (by omega), Nat.add_sub_cancel_left, utf8DecodeFrom_tail (by omega)]
        exact utf8DecodeFrom_last (by omega) hencodable (by omega) (by omega) rest
      · rw [List.cons_append, List.cons_append, List.cons_append, List.singleton_append,
          utf8DecodeFrom, val_byte (by omega), if_neg (by omega), if_neg (by omega),
          if_neg (by omega), if_neg (by omega), if_pos (by omega), Nat.add_sub_cancel_left,
          utf8DecodeFrom_tail (by omega), utf8DecodeFrom_tail (by omega)]
        exact utf8DecodeFrom_last (by omega) hencodable (by omega) (by omega) rest

/-- Decoding inverts encoding. -/
theorem utf8Decode_utf8 (hencodable : Encodable text) : utf8Decode (utf8 text) = some text := by
  rw [utf8Decode]
  induction text with
  | nil => rfl
  | cons c rest ih =>
    have hrest : Encodable rest := fun d hd => hencodable d (List.mem_cons_of_mem c hd)
    rw [utf8, List.flatMap_cons, utf8DecodeFrom_char (hencodable c List.mem_cons_self)]
    exact congrArg (Option.map (c :: ·)) (ih hrest)

theorem utf8_ne_nil (htext : text ≠ []) : utf8 text ≠ [] := by
  cases text with
  | nil => exact absurd rfl htext
  | cons c rest =>
    rw [utf8, List.flatMap_cons, utf8Char]
    split
    · exact List.cons_ne_nil _ _
    · split
      · exact List.cons_ne_nil _ _
      · split <;> exact List.cons_ne_nil _ _

/-! ## Decoding with replacements -/

/-- `U+FFFD`. -/
def replacementChar : CodePoint := 0xFFFD

/-- The continuation bytes that a character still lacks, the number so far, and the bounds
of the next byte. -/
structure Owed where
  count : ℕ
  acc : ℕ
  low : ℕ
  high : ℕ

/-- The first byte of a character: it stands alone, is replaced, or others have to follow. -/
def firstByte (byte : Byte) : CodePoint ⊕ Owed :=
  if byte.val < 0x80 then .inl ⟨byte.val, by omega⟩
  else if byte.val < 0xC2 then .inl replacementChar
  else if byte.val < 0xE0 then .inr ⟨1, byte.val - 0xC0, 0x80, 0xBF⟩
  else if byte.val < 0xF0 then
    .inr ⟨2, byte.val - 0xE0, if byte.val = 0xE0 then 0xA0 else 0x80,
      if byte.val = 0xED then 0x9F else 0xBF⟩
  else if byte.val < 0xF5 then
    .inr ⟨3, byte.val - 0xF0, if byte.val = 0xF0 then 0x90 else 0x80,
      if byte.val = 0xF4 then 0x8F else 0xBF⟩
  else .inl replacementChar

def codePointOf (n : ℕ) : CodePoint :=
  if h : n < 0x110000 then ⟨n, h⟩ else replacementChar

/-- A character that breaks off is replaced as a whole, and the byte that broke it off is
read again. -/
def utf8ReplaceFrom : Option Owed → List Byte → PyStr
  | none, [] => []
  | some _, [] => [replacementChar]
  | none, byte :: rest =>
    match firstByte byte with
    | .inl c => c :: utf8ReplaceFrom none rest
    | .inr owed => utf8ReplaceFrom (some owed) rest
  | some owed, byte :: rest =>
    if owed.low ≤ byte.val ∧ byte.val ≤ owed.high then
      if owed.count ≤ 1 then
        codePointOf (owed.acc * 64 + (byte.val - 0x80)) :: utf8ReplaceFrom none rest
      else
        utf8ReplaceFrom
          (some ⟨owed.count - 1, owed.acc * 64 + (byte.val - 0x80), 0x80, 0xBF⟩) rest
    else
      replacementChar ::
        match firstByte byte with
        | .inl c => c :: utf8ReplaceFrom none rest
        | .inr owed => utf8ReplaceFrom (some owed) rest

def utf8Replace (bytes : List Byte) : PyStr :=
  utf8ReplaceFrom none bytes

theorem codePointOf_val (c : CodePoint) : codePointOf c.val = c :=
  dif_pos c.isLt

theorem utf8ReplaceFrom_last {owed : Owed} (hcount : owed.count = 1) (hlow : owed.low ≤ 0x80 + n)
    (hhigh : 0x80 + n ≤ owed.high) (hn : n < 64) (hc : owed.acc * 64 + n = c.val) (rest : List Byte) :
    utf8ReplaceFrom (some owed) (Fin.ofNat 256 (0x80 + n) :: rest) =
      c :: utf8ReplaceFrom none rest := by
  rw [utf8ReplaceFrom, val_byte (by omega), if_pos ⟨hlow, hhigh⟩, if_pos hcount.le,
    Nat.add_sub_cancel_left, hc, codePointOf_val]

theorem utf8ReplaceFrom_next {owed : Owed} (hcount : 1 < owed.count)
    (hlow : owed.low ≤ 0x80 + n) (hhigh : 0x80 + n ≤ owed.high) (hn : n < 64) (rest : List Byte) :
    utf8ReplaceFrom (some owed) (Fin.ofNat 256 (0x80 + n) :: rest) =
      utf8ReplaceFrom (some ⟨owed.count - 1, owed.acc * 64 + n, 0x80, 0xBF⟩) rest := by
  rw [utf8ReplaceFrom, val_byte (by omega), if_pos ⟨hlow, hhigh⟩, if_neg (not_le.mpr hcount),
    Nat.add_sub_cancel_left]

theorem utf8ReplaceFrom_none (byte : Byte) (rest : List Byte) :
    utf8ReplaceFrom none (byte :: rest) =
      match firstByte byte with
      | .inl c => c :: utf8ReplaceFrom none rest
      | .inr owed => utf8ReplaceFrom (some owed) rest := by
  rw [utf8ReplaceFrom]

/-- The bytes of one code point are not replaced. -/
theorem utf8ReplaceFrom_char (hencodable : isSurrogate c = false) (rest : List Byte) :
    utf8ReplaceFrom none (utf8Char c ++ rest) = c :: utf8ReplaceFrom none rest := by
  have hbound : c.val < 0x110000 := c.isLt
  have hsurrogate : c.val < 0xD800 ∨ 0xDFFF < c.val := by
    simp only [isSurrogate, Bool.and_eq_false_iff, decide_eq_false_iff_not] at hencodable
    omega
  rw [utf8Char]
  split
  · next hone =>
    have hfirst : firstByte (Fin.ofNat 256 c.val) = .inl c := by
      rw [firstByte, if_pos (by rw [val_byte (by omega)]; exact hone)]
      exact congrArg Sum.inl (Fin.ext (val_byte (by omega)))
    rw [List.singleton_append, utf8ReplaceFrom_none, hfirst]
  · split
    · have hfirst : firstByte (Fin.ofNat 256 (0xC0 + c.val / 64)) =
          .inr ⟨1, c.val / 64, 0x80, 0xBF⟩ := by
        rw [firstByte]
        simp only [val_byte (show 0xC0 + c.val / 64 < 256 by omega)]
        rw [if_neg (by omega), if_neg (by omega), if_pos (by omega), Nat.add_sub_cancel_left]
      rw [List.cons_append, List.singleton_append, utf8ReplaceFrom_none, hfirst]
      exact utf8ReplaceFrom_last rfl (Nat.le_add_right _ _) (by simp only; omega) (by omega)
        (by simp only; omega) rest
    · split
      · have hfirst : firstByte (Fin.ofNat 256 (0xE0 + c.val / 4096)) =
            .inr ⟨2, c.val / 4096, if 0xE0 + c.val / 4096 = 0xE0 then 0xA0 else 0x80,
              if 0xE0 + c.val / 4096 = 0xED then 0x9F else 0xBF⟩ := by
          rw [firstByte]
          simp only [val_byte (show 0xE0 + c.val / 4096 < 256 by omega)]
          rw [if_neg (by omega), if_neg (by omega), if_neg (by omega), if_pos (by omega),
            Nat.add_sub_cancel_left]
        rw [List.cons_append, List.cons_append, List.singleton_append, utf8ReplaceFrom_none, hfirst]
        simp only
        rw [utf8ReplaceFrom_next (by simp) (by simp only; split <;> omega)
          (by simp only; split <;> omega) (by omega)]
        exact utf8ReplaceFrom_last rfl (Nat.le_add_right _ _) (by simp only; omega) (by omega)
          (by simp only; omega) rest
      · have hfirst : firstByte (Fin.ofNat 256 (0xF0 + c.val / 262144)) =
            .inr ⟨3, c.val / 262144, if 0xF0 + c.val / 262144 = 0xF0 then 0x90 else 0x80,
              if 0xF0 + c.val / 262144 = 0xF4 then 0x8F else 0xBF⟩ := by
          rw [firstByte]
          simp only [val_byte (show 0xF0 + c.val / 262144 < 256 by omega)]
          rw [if_neg (by omega), if_neg (by omega), if_neg (by omega), if_neg (by omega),
            if_pos (by omega), Nat.add_sub_cancel_left]
        rw [List.cons_append, List.cons_append, List.cons_append, List.singleton_append,
          utf8ReplaceFrom_none, hfirst]
        simp only
        rw [utf8ReplaceFrom_next (by simp) (by simp only; split <;> omega)
          (by simp only; split <;> omega) (by omega),
          utf8ReplaceFrom_next (by simp) (Nat.le_add_right _ _) (by simp only; omega) (by omega)]
        exact utf8ReplaceFrom_last rfl (Nat.le_add_right _ _) (by simp only; omega) (by omega)
          (by simp only; omega) rest

/-- Nothing is replaced in the bytes of a text. -/
theorem utf8Replace_utf8 (hencodable : Encodable text) : utf8Replace (utf8 text) = text := by
  rw [utf8Replace]
  induction text with
  | nil => rfl
  | cons c rest ih =>
    have hrest : Encodable rest := fun d hd => hencodable d (List.mem_cons_of_mem c hd)
    rw [utf8, List.flatMap_cons, utf8ReplaceFrom_char (hencodable c List.mem_cons_self)]
    exact congrArg (c :: ·) (ih hrest)

/-- Every character takes at least one byte. -/
theorem length_utf8ReplaceFrom_le (owed : Option Owed) (bytes : List Byte) :
    (utf8ReplaceFrom owed bytes).length ≤ bytes.length + if owed.isSome then 1 else 0 := by
  induction bytes generalizing owed with
  | nil => cases owed <;> simp [utf8ReplaceFrom]
  | cons byte rest ih =>
    have hnone := ih none
    have hsome (owed : Owed) := ih (some owed)
    simp only [Option.isSome_none, Option.isSome_some, if_true, Bool.false_eq_true, if_false,
      Nat.add_zero] at hnone hsome
    have hfresh : (utf8ReplaceFrom none (byte :: rest)).length ≤ rest.length + 1 := by
      rw [utf8ReplaceFrom_none]
      split
      · rw [List.length_cons]
        omega
      · exact hsome _
    cases owed with
    | none => exact hfresh
    | some owed =>
      rw [utf8ReplaceFrom, ← utf8ReplaceFrom_none]
      simp only [List.length_cons, Option.isSome_some, if_true]
      split
      · split
        · rw [List.length_cons]
          omega
        · exact (hsome _).trans (by omega)
      · rw [List.length_cons]
        omega

theorem length_utf8Replace_le (bytes : List Byte) : (utf8Replace bytes).length ≤ bytes.length :=
  length_utf8ReplaceFrom_le none bytes

end RootSeeker.Python
