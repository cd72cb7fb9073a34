import Mathlib

/-!
# Python text

A Python string is a sequence of code points, unpaired surrogates included, so
it is not a Lean `String`.  This module fixes the representation and the few
string operations that the modelled code uses: stripping, joining, sorting by
code points and decimal notation.
-/

namespace RootSeeker.Python

abbrev CodePoint := Fin 0x110000

abbrev PyStr := List CodePoint

instance charBound : NeZero 0x110000 := ⟨by decide⟩

instance : LawfulBEq CodePoint := inferInstance

instance : LawfulBEq PyStr := inferInstance

def CodePoint.ofChar (c : Char) : CodePoint :=
  ⟨c.toNat, by
    have hvalid := c.valid
    simp only [UInt32.isValidChar, Nat.isValidChar] at hvalid
    change c.val.toNat < 0x110000
    omega⟩

variable {c : CodePoint} {drop : CodePoint → Bool} {text : PyStr}

theorem CodePoint.small_lt (h : 0x41 ≤ c.val ∧ c.val ≤ 0x5A) :
    c.val + 0x20 < 0x110000 := by omega

theorem CodePoint.capital_lt (_ : 0x61 ≤ c.val ∧ c.val ≤ 0x7A) :
    c.val - 0x20 < 0x110000 := by omega

theorem CodePoint.surrogate_lt : 0xD800 < 0x110000 := by decide

/-- A Python literal. -/
def py (literal : String) : PyStr :=
  literal.toList.map CodePoint.ofChar

def isSurrogate (c : CodePoint) : Bool :=
  0xD800 ≤ c.val && c.val ≤ 0xDFFF

def isAscii (c : CodePoint) : Bool :=
  c.val < 0x80

/-- Text without unpaired surrogates: what can be encoded as UTF-8 and what a
validated model field of type `str` accepts. -/
def Encodable (text : PyStr) : Prop :=
  ∀ c ∈ text, isSurrogate c = false

/-- Decided along the text, not over all code points. -/
instance (text : PyStr) : Decidable (Encodable text) :=
  decidable_of_iff (text.all (!isSurrogate ·) = true) (by simp [Encodable])

@[simp]
theorem encodable_nil : Encodable [] := by
  simp [Encodable]

theorem encodable_append {left right : PyStr} :
    Encodable (left ++ right) ↔ Encodable left ∧ Encodable right := by
  simp only [Encodable, List.mem_append]
  exact ⟨fun h => ⟨fun c hc => h c (Or.inl hc), fun c hc => h c (Or.inr hc)⟩,
    fun h c hc => hc.elim (h.1 c) (h.2 c)⟩

/-- A literal is a sequence of characters, and no character is a surrogate. -/
theorem encodable_py (literal : String) : Encodable (py literal) := by
  intro c hc
  obtain ⟨char, _, rfl⟩ := List.mem_map.mp hc
  have hvalid := char.valid
  simp only [UInt32.isValidChar, Nat.isValidChar] at hvalid
  have hval : (CodePoint.ofChar char).val = char.val.toNat := rfl
  simp only [isSurrogate, hval, Bool.and_eq_false_iff, decide_eq_false_iff_not]
  omega

/-! ## Stripping -/

/-- The characters for which `str.isspace` holds. -/
def isSpace (c : CodePoint) : Bool :=
  (0x09 ≤ c.val && c.val ≤ 0x0D) || (0x1C ≤ c.val && c.val ≤ 0x20) ||
    c.val = 0x85 || c.val = 0xA0 || c.val = 0x1680 ||
    (0x2000 ≤ c.val && c.val ≤ 0x200A) || c.val = 0x2028 || c.val = 0x2029 ||
    c.val = 0x202F || c.val = 0x205F || c.val = 0x3000

/-- Remove the longest prefix and suffix of characters that satisfy `drop`. -/
def stripBy (drop : CodePoint → Bool) (text : PyStr) : PyStr :=
  (text.dropWhile drop).rdropWhile drop

/-- `str.strip()`. -/
def strip (text : PyStr) : PyStr :=
  stripBy isSpace text

theorem stripBy_sublist (drop : CodePoint → Bool) (text : PyStr) :
    (stripBy drop text).Sublist text :=
  (List.rdropWhile_prefix drop _).sublist.trans (List.dropWhile_sublist drop)

theorem encodable_stripBy (hencodable : Encodable text) : Encodable (stripBy drop text) :=
  fun c hc => hencodable c ((stripBy_sublist drop text).subset hc)

theorem mem_dropWhile_of_mem (hc : c ∈ text) (hkept : drop c = false) :
    c ∈ text.dropWhile drop := by
  rw [← List.takeWhile_append_dropWhile (p := drop) (l := text), List.mem_append] at hc
  apply hc.resolve_left
  intro hdropped
  rw [List.mem_takeWhile_imp hdropped] at hkept
  exact absurd hkept (by simp)

/-- Stripping removes nothing but strippable characters. -/
theorem mem_stripBy_of_mem (hc : c ∈ text) (hkept : drop c = false) : c ∈ stripBy drop text := by
  rw [stripBy, List.rdropWhile, List.mem_reverse]
  apply mem_dropWhile_of_mem _ hkept
  rw [List.mem_reverse]
  exact mem_dropWhile_of_mem hc hkept

theorem stripBy_ne_nil_iff : stripBy drop text ≠ [] ↔ ∃ c ∈ text, drop c = false := by
  constructor
  · intro hne
    by_contra hall
    push Not at hall
    have hdropped : text.dropWhile drop = [] :=
      List.dropWhile_eq_nil_iff.mpr fun c hc => Bool.eq_true_of_not_eq_false (hall c hc)
    exact hne (by rw [stripBy, hdropped, List.rdropWhile_nil])
  · rintro ⟨c, hc, hkept⟩
    exact List.ne_nil_of_mem (mem_stripBy_of_mem hc hkept)

theorem isSpace_of_isSurrogate (hsurrogate : isSurrogate c = true) : isSpace c = false := by
  simp only [isSurrogate, Bool.and_eq_true, decide_eq_true_eq] at hsurrogate
  simp only [isSpace, Bool.or_eq_false_iff, Bool.and_eq_false_iff, decide_eq_false_iff_not]
  omega

/-- An unpaired surrogate is not blank, so stripping keeps it. -/
@[simp]
theorem encodable_strip_iff : Encodable (strip text) ↔ Encodable text := by
  constructor
  · intro hstripped c hc
    by_contra hsurrogate
    rw [Bool.not_eq_false] at hsurrogate
    have hmem := mem_stripBy_of_mem hc (isSpace_of_isSurrogate hsurrogate)
    rw [hstripped c hmem] at hsurrogate
    exact absurd hsurrogate (by simp)
  · exact encodable_stripBy

/-- A text whose ends are not stripped is left alone. -/
theorem stripBy_eq_self (hhead : ∀ c ∈ text.head?, drop c = false)
    (hlast : ∀ c ∈ text.getLast?, drop c = false) : stripBy drop text = text := by
  have hdrop : text.dropWhile drop = text := by
    cases text with
    | nil => rfl
    | cons c rest => exact List.dropWhile_cons_of_neg (by simp [hhead c rfl])
  rw [stripBy, hdrop, List.rdropWhile_eq_self_iff]
  intro hne hlastDrop
  have hkept := hlast (text.getLast hne) (List.getLast?_eq_some_getLast hne)
  rw [hkept] at hlastDrop
  exact absurd hlastDrop (by simp)

/-- A text without strippable characters is left alone. -/
theorem stripBy_eq_self_of_forall (hkept : ∀ c ∈ text, drop c = false) :
    stripBy drop text = text := by
  apply stripBy_eq_self
  · intro c hc
    exact hkept c (List.mem_of_head? hc)
  · intro c hc
    exact hkept c (List.mem_of_getLast? hc)

/-- Neither end of a stripped text is stripped again. -/
theorem stripBy_idem (drop : CodePoint → Bool) (text : PyStr) :
    stripBy drop (stripBy drop text) = stripBy drop text := by
  have hprefix : stripBy drop text <+: text.dropWhile drop :=
    List.rdropWhile_prefix drop _
  have hhead : (stripBy drop text).dropWhile drop = stripBy drop text := by
    cases hstrip : stripBy drop text with
    | nil => rfl
    | cons c rest =>
      rw [hstrip] at hprefix
      obtain ⟨tail, htail⟩ := hprefix
      refine List.dropWhile_cons_of_neg ?_
      have hne : text.dropWhile drop ≠ [] := by
        rw [← htail]
        simp
      have hkept := List.head_dropWhile_not drop hne
      simp only [← htail, List.cons_append, List.head_cons] at hkept
      simp [hkept]
  rw [stripBy, hhead, stripBy, List.rdropWhile_idempotent]

theorem rdropWhile_append (left right : PyStr) :
    (left ++ right).rdropWhile drop =
      if right.rdropWhile drop = [] then left.rdropWhile drop
      else left ++ right.rdropWhile drop := by
  simp only [List.rdropWhile, List.reverse_append, List.dropWhile_append,
    List.reverse_eq_nil_iff, List.isEmpty_iff]
  split
  · rfl
  · rw [List.reverse_append, List.reverse_reverse]

theorem dropWhile_of_stripBy_eq_self (hstripped : stripBy drop text = text) :
    text.dropWhile drop = text := by
  apply (List.dropWhile_sublist drop).eq_of_length_le
  rw [← congrArg List.length hstripped]
  exact (List.rdropWhile_prefix drop _).length_le

theorem last_of_stripBy_eq_self (hstripped : stripBy drop text = text) :
    ∀ c ∈ text.getLast?, drop c = false := by
  have hdropped := dropWhile_of_stripBy_eq_self hstripped
  rw [stripBy, hdropped, List.rdropWhile_eq_self_iff] at hstripped
  intro c hc
  cases text with
  | nil => exact absurd hc (by simp)
  | cons d rest =>
    have hlast := hstripped (List.cons_ne_nil d rest)
    rw [List.getLast?_eq_some_getLast (List.cons_ne_nil d rest)] at hc
    rw [Option.some.inj hc] at hlast
    simpa using hlast

theorem head_of_stripBy_eq_self (hstripped : stripBy drop text = text) :
    ∀ c ∈ text.head?, drop c = false := by
  have hdropped := dropWhile_of_stripBy_eq_self hstripped
  intro c hc
  cases text with
  | nil => exact absurd hc (by simp)
  | cons d rest =>
    obtain rfl := Option.some.inj hc
    by_contra hdrop
    rw [Bool.not_eq_false] at hdrop
    rw [List.dropWhile_cons_of_pos hdrop] at hdropped
    have hshorter := (List.dropWhile_sublist drop (l := rest)).length_le
    rw [hdropped, List.length_cons] at hshorter
    omega

/-- The characters at which `str.splitlines` splits. -/
def isLineBreak (c : CodePoint) : Bool :=
  (0x0A ≤ c.val && c.val ≤ 0x0D) || (0x1C ≤ c.val && c.val ≤ 0x1E) ||
    c.val = 0x85 || c.val = 0x2028 || c.val = 0x2029

/-- `text.splitlines()[0]` of a text that is not empty. -/
def firstLine (text : PyStr) : PyStr :=
  text.takeWhile (!isLineBreak ·)

/-! ## Joining, order and decimal notation -/

/-- `separator.join(parts)`. -/
def join (separator : PyStr) (parts : List PyStr) : PyStr :=
  separator.intercalate parts

theorem mem_join_of_mem {separator part : PyStr} {parts : List PyStr} (hpart : part ∈ parts)
    (hc : c ∈ part) : c ∈ join separator parts := by
  induction parts with
  | nil => exact absurd hpart List.not_mem_nil
  | cons first rest ih =>
    cases rest with
    | nil => simpa [join, List.intercalate, List.mem_singleton.mp hpart] using hc
    | cons second rest =>
      have hjoin : join separator (first :: second :: rest) =
          first ++ (separator ++ join separator (second :: rest)) := by
        simp [join, List.intercalate]
      rw [hjoin]
      cases List.mem_cons.mp hpart with
      | inl heq => exact List.mem_append_left _ (heq ▸ hc)
      | inr hlater => exact List.mem_append_right _ (List.mem_append_right _ (ih hlater))

/-- `sorted(texts)`: by code points. -/
def sortedTexts (texts : List PyStr) : List PyStr :=
  texts.insertionSort (· ≤ ·)

/-- Decimal digits, most significant first. -/
def decimal (n : ℕ) : PyStr :=
  (Nat.toDigits 10 n).map CodePoint.ofChar

/-- `str` of a Python integer. -/
def intText : ℤ → PyStr
  | Int.ofNat n => decimal n
  | Int.negSucc n => py "-" ++ decimal (n + 1)

def colonChar : CodePoint :=
  CodePoint.ofChar ':'

/-- `line.split(":", 1)` on a line with a colon. -/
def splitHeader (line : PyStr) : PyStr × PyStr :=
  (line.takeWhile (· ≠ colonChar), (line.dropWhile (· ≠ colonChar)).tail)

theorem CodePoint.ofChar_injective : Function.Injective CodePoint.ofChar := by
  intro left right heq
  have hval : left.toNat = right.toNat := congrArg (fun c : CodePoint => c.val) heq
  exact Char.ext (UInt32.toNat_inj.mp hval)

/-- The characters `0` to `9`. -/
def isDigit (c : CodePoint) : Bool :=
  0x30 ≤ c.val && c.val ≤ 0x39

/-- `\w`: ASCII letters, digits and `_`, and what `wordChar` says of the other characters. -/
def isWordChar (wordChar : CodePoint → Bool) (c : CodePoint) : Bool :=
  if isAscii c then
    isDigit c || (0x41 ≤ c.val && c.val ≤ 0x5A) || (0x61 ≤ c.val && c.val ≤ 0x7A) || c.val = 0x5F
  else wordChar c

theorem isDigit_of_mem_decimal {n : ℕ} : ∀ c ∈ decimal n, isDigit c = true := by
  intro c hc
  obtain ⟨digit, hdigit, rfl⟩ := List.mem_map.mp hc
  have hchar := Nat.isDigit_of_mem_toDigits (by decide) (by decide) hdigit
  simp only [Char.isDigit, Bool.and_eq_true, decide_eq_true_eq, ge_iff_le,
    UInt32.le_iff_toNat_le] at hchar
  have hval : (CodePoint.ofChar digit).val = digit.val.toNat := rfl
  simp only [isDigit, hval, Bool.and_eq_true, decide_eq_true_eq]
  exact hchar

theorem decimal_injective : Function.Injective decimal := by
  intro left right heq
  have hdigits : Nat.toDigits 10 left = Nat.toDigits 10 right :=
    List.map_injective_iff.mpr CodePoint.ofChar_injective heq
  have hread := congrArg (fun digits => Nat.ofDigitChars 10 digits 0) hdigits
  simpa only [Nat.ofDigitChars_ten_toDigits] using hread

theorem decimal_ne_nil (n : ℕ) : decimal n ≠ [] := by
  rw [decimal, ne_eq, List.map_eq_nil_iff]
  exact Nat.toDigits_ne_nil

theorem intText_injective : Function.Injective intText := by
  have hminus : ∀ m n : ℕ, decimal m ≠ py "-" ++ decimal n := by
    intro m n heq
    have hdigit := isDigit_of_mem_decimal (n := m) (CodePoint.ofChar '-') (heq ▸ List.mem_cons_self)
    exact absurd hdigit (by decide)
  intro left right heq
  cases left with
  | ofNat m =>
    cases right with
    | ofNat n => rw [decimal_injective heq]
    | negSucc n => exact absurd heq (hminus m (n + 1))
  | negSucc m =>
    cases right with
    | ofNat n => exact absurd heq.symm (hminus n (m + 1))
    | negSucc n =>
      have hsucc := decimal_injective (List.append_cancel_left heq)
      rw [Nat.succ_injective hsucc]

theorem integer_of_mem_intText {value : ℤ} (hc : c ∈ intText value) :
    isDigit c = true ∨ c = CodePoint.ofChar '-' := by
  cases value with
  | ofNat n => exact Or.inl (isDigit_of_mem_decimal c hc)
  | negSucc n =>
    cases List.mem_append.mp hc with
    | inl hminus => exact Or.inr (List.mem_singleton.mp hminus)
    | inr hdigit => exact Or.inl (isDigit_of_mem_decimal c hdigit)

theorem colon_not_mem_intText (n : ℤ) : colonChar ∉ intText n := by
  intro hmem
  cases integer_of_mem_intText hmem with
  | inl hdigit => exact absurd hdigit (by decide)
  | inr hminus => exact absurd hminus (by decide)

end RootSeeker.Python
