import RootSeeker.Core.Framing
import RootSeeker.Python.Repr
import RootSeeker.Python.Words

/-!
# A printed value can be read back

Different values print differently, and a printed value ends where a delimiter
follows it: `repr` loses nothing.  What is assumed of a printed float is what
its documentation says: different floats print differently, in digits, signs,
points and lower-case letters, and never like an integer.
-/

namespace RootSeeker.Python

open Framing

/-! ## Hexadecimal escapes -/

theorem hexDigit_inj {m n : ℕ} (heq : hexDigit m = hexDigit n) : m % 16 = n % 16 := by
  unfold hexDigit at heq
  split at heq <;> split at heq <;> simp only [Fin.mk.injEq] at heq <;> omega

theorem length_hex (width n : ℕ) : (hex width n).length = width := by
  induction width generalizing n with
  | zero => rfl
  | succ width ih => simp [hex, ih]

theorem hex_inj {width m n : ℕ} (hm : m < 16 ^ width) (hn : n < 16 ^ width)
    (heq : hex width m = hex width n) : m = n := by
  induction width generalizing m n with
  | zero => omega
  | succ width ih =>
    have hparts := List.append_inj heq (by rw [length_hex, length_hex])
    have hquotients : m / 16 = n / 16 := by
      apply ih _ _ hparts.1
      · exact Nat.div_lt_of_lt_mul (by rwa [pow_succ'] at hm)
      · exact Nat.div_lt_of_lt_mul (by rwa [pow_succ'] at hn)
    have hrests := hexDigit_inj (List.cons.inj hparts.2).1
    omega

variable {value : Json} {other text otherRest : PyStr} {quote c : CodePoint}
  {rest : PyStr} {std : Stdlib} {d : CodePoint}

theorem hex_append_inj {width m n : ℕ} (hm : m < 16 ^ width) (hn : n < 16 ^ width)
    (heq : hex width m ++ rest = hex width n ++ otherRest) : m = n ∧ rest = otherRest := by
  have hparts := List.append_inj heq (by rw [length_hex, length_hex])
  exact ⟨hex_inj hm hn hparts.1, hparts.2⟩

/-! ## Characters of a string literal -/

def IsQuote (quote : CodePoint) : Prop :=
  quote = apostrophe ∨ quote = doubleQuote

theorem isQuote_quoteFor (text : PyStr) : IsQuote (quoteFor text) := by
  unfold quoteFor
  split
  · exact Or.inr rfl
  · exact Or.inl rfl

/-- What follows the backslash of an escaped character. -/
inductive EscapeTail (quote c : CodePoint) : PyStr → Prop
  | self (hself : c = quote ∨ c = backslash) : EscapeTail quote c [c]
  | letter (letter : Char)
      (hletter : (letter, c.val) ∈ [('t', 0x09), ('n', 0x0A), ('r', 0x0D)]) :
      EscapeTail quote c [CodePoint.ofChar letter]
  | code (letter : Char) (width : ℕ)
      (hletter : (letter, width) ∈ [('x', 2), ('u', 4), ('U', 8)])
      (hwidth : c.val < 16 ^ width) :
      EscapeTail quote c (CodePoint.ofChar letter :: hex width c.val)

theorem escapeChar_cases (std : Stdlib) (quote c : CodePoint) :
    (escapeChar std quote c = [c] ∧ c ≠ quote ∧ c ≠ backslash) ∨
      ∃ tail, escapeChar std quote c = backslash :: tail ∧ EscapeTail quote c tail := by
  unfold escapeChar
  split
  · rename_i hself
    exact Or.inr ⟨_, rfl, .self hself⟩
  rename_i hplain
  rw [not_or] at hplain
  split
  · rename_i htab
    exact Or.inr ⟨_, rfl, .letter 't' (by simp [htab]; rfl)⟩
  split
  · rename_i hnewline
    exact Or.inr ⟨_, rfl, .letter 'n' (by simp [hnewline]; rfl)⟩
  split
  · rename_i hreturn
    exact Or.inr ⟨_, rfl, .letter 'r' (by simp [hreturn]; rfl)⟩
  split
  · exact Or.inr ⟨_, rfl, .code 'x' 2 (by simp) (by omega)⟩
  split
  · exact Or.inl ⟨rfl, hplain⟩
  split
  · exact Or.inl ⟨rfl, hplain⟩
  split
  · exact Or.inr ⟨_, rfl, .code 'x' 2 (by simp) (by omega)⟩
  split
  · exact Or.inr ⟨_, rfl, .code 'u' 4 (by simp) (by omega)⟩
  · exact Or.inr ⟨_, rfl, .code 'U' 8 (by simp) (by omega)⟩

/-- The letter after a backslash is neither a quote nor a backslash. -/
theorem not_mem_letters_of_self (hquote : IsQuote quote) (hself : c = quote ∨ c = backslash) :
    c ∉ py "tnrxuU" := by
  cases hself with
  | inl hc =>
    rw [hc]
    cases hquote with
    | inl hquote => exact hquote ▸ (by decide : apostrophe ∉ py "tnrxuU")
    | inr hquote => exact hquote ▸ (by decide : doubleQuote ∉ py "tnrxuU")
  | inr hc => exact hc ▸ (by decide : backslash ∉ py "tnrxuU")

theorem letter_inj : ∀ left ∈ [('t', 0x09), ('n', 0x0A), ('r', 0x0D)],
    ∀ right ∈ [('t', 0x09), ('n', 0x0A), ('r', 0x0D)],
    left.1 = right.1 → left.2 = right.2 := by
  decide

theorem code_inj : ∀ left ∈ [('x', 2), ('u', 4), ('U', 8)],
    ∀ right ∈ [('x', 2), ('u', 4), ('U', 8)], left.1 = right.1 → left.2 = right.2 := by
  decide

theorem letter_ne_code : ∀ left ∈ [('t', 0x09), ('n', 0x0A), ('r', 0x0D)],
    ∀ right ∈ [('x', 2), ('u', 4), ('U', 8)], left.1 ≠ right.1 := by
  decide

theorem mem_letters_of_letter {letter : Char} {value : ℕ}
    (hletter : (letter, value) ∈ [('t', 0x09), ('n', 0x0A), ('r', 0x0D)]) :
    CodePoint.ofChar letter ∈ py "tnrxuU" := by
  have hmem := List.mem_map_of_mem (f := fun pair => CodePoint.ofChar pair.1) hletter
  exact List.mem_append_left (py "xuU") hmem

theorem mem_letters_of_code {letter : Char} {width : ℕ}
    (hletter : (letter, width) ∈ [('x', 2), ('u', 4), ('U', 8)]) :
    CodePoint.ofChar letter ∈ py "tnrxuU" := by
  have hmem := List.mem_map_of_mem (f := fun pair => CodePoint.ofChar pair.1) hletter
  exact List.mem_append_right (py "tnr") hmem

theorem EscapeTail.append_inj (hquote : IsQuote quote) {tail : PyStr}
    (hc : EscapeTail quote c tail) (hd : EscapeTail quote d other)
    (heq : tail ++ rest = other ++ otherRest) : c = d ∧ rest = otherRest := by
  cases hc with
  | self hself =>
    cases hd with
    | self _ => exact List.cons.inj heq
    | letter letter hletter =>
      have hmem := mem_letters_of_letter hletter
      rw [← (List.cons.inj heq).1] at hmem
      exact absurd hmem (not_mem_letters_of_self hquote hself)
    | code letter width hletter _ =>
      have hmem := mem_letters_of_code hletter
      rw [← (List.cons.inj heq).1] at hmem
      exact absurd hmem (not_mem_letters_of_self hquote hself)
  | letter letter hletter =>
    cases hd with
    | self hself =>
      have hmem := mem_letters_of_letter hletter
      rw [(List.cons.inj heq).1] at hmem
      exact absurd hmem (not_mem_letters_of_self hquote hself)
    | letter letter' hletter' =>
      have hsame := CodePoint.ofChar_injective (List.cons.inj heq).1
      exact ⟨Fin.ext (letter_inj _ hletter _ hletter' hsame), (List.cons.inj heq).2⟩
    | code letter' width hletter' _ =>
      have hsame := CodePoint.ofChar_injective (List.cons.inj heq).1
      exact absurd hsame (letter_ne_code _ hletter _ hletter')
  | code letter width hletter hwidth =>
    cases hd with
    | self hself =>
      have hmem := mem_letters_of_code hletter
      rw [(List.cons.inj heq).1] at hmem
      exact absurd hmem (not_mem_letters_of_self hquote hself)
    | letter letter' hletter' =>
      have hsame := CodePoint.ofChar_injective (List.cons.inj heq).1
      exact absurd hsame.symm (letter_ne_code _ hletter' _ hletter)
    | code letter' width' hletter' hwidth' =>
      have hsame := CodePoint.ofChar_injective (List.cons.inj heq).1
      obtain rfl : width = width' := code_inj _ hletter _ hletter' hsame
      obtain ⟨hval, hrest⟩ := hex_append_inj hwidth hwidth' (List.cons.inj heq).2
      exact ⟨Fin.ext hval, hrest⟩

/-- The printed characters of a literal can be told apart, whatever follows. -/
theorem escapeChar_append_inj (std : Stdlib) (hquote : IsQuote quote)
    (heq : escapeChar std quote c ++ rest = escapeChar std quote d ++ otherRest) :
    c = d ∧ rest = otherRest := by
  rcases escapeChar_cases std quote c with ⟨hc, _, hcPlain⟩ | ⟨tail, hc, hcTail⟩
  · rcases escapeChar_cases std quote d with ⟨hd, _, _⟩ | ⟨other, hd, _⟩
    · rw [hc, hd] at heq
      exact List.cons.inj heq
    · rw [hc, hd] at heq
      exact absurd (List.cons.inj heq).1 hcPlain
  · rcases escapeChar_cases std quote d with ⟨hd, _, hdPlain⟩ | ⟨other, hd, hdTail⟩
    · rw [hc, hd] at heq
      exact absurd (List.cons.inj heq).1.symm hdPlain
    · rw [hc, hd] at heq
      exact EscapeTail.append_inj hquote hcTail hdTail (List.cons.inj heq).2

/-- No printed character of a literal starts with the enclosing quote. -/
theorem escapeChar_append_ne_quote (std : Stdlib) (hquote : IsQuote quote) (c : CodePoint)
    (rest otherRest : PyStr) : escapeChar std quote c ++ rest ≠ quote :: otherRest := by
  intro heq
  rcases escapeChar_cases std quote c with ⟨hc, hne, _⟩ | ⟨tail, hc, _⟩
  · rw [hc] at heq
    exact hne (List.cons.inj heq).1
  · rw [hc] at heq
    have hbackslash : backslash = quote := (List.cons.inj heq).1
    rcases hquote with rfl | rfl
    · exact absurd hbackslash (by decide)
    · exact absurd hbackslash (by decide)

theorem escaped_append_inj (std : Stdlib) (hquote : IsQuote quote)
    (heq : text.flatMap (escapeChar std quote) ++ quote :: rest =
      other.flatMap (escapeChar std quote) ++ quote :: otherRest) :
    text = other ∧ rest = otherRest := by
  induction text generalizing other with
  | nil =>
    cases other with
    | nil => exact ⟨rfl, (List.cons.inj heq).2⟩
    | cons d others =>
      rw [List.flatMap_cons, List.append_assoc] at heq
      exact absurd heq.symm (escapeChar_append_ne_quote std hquote d _ _)
  | cons c text ih =>
    cases other with
    | nil =>
      rw [List.flatMap_cons, List.append_assoc] at heq
      exact absurd heq (escapeChar_append_ne_quote std hquote c _ _)
    | cons d others =>
      rw [List.flatMap_cons, List.flatMap_cons, List.append_assoc, List.append_assoc] at heq
      obtain ⟨hsame, htails⟩ := escapeChar_append_inj std hquote heq
      obtain ⟨hothers, hrests⟩ := ih htails
      exact ⟨by rw [hsame, hothers], hrests⟩

/-- A printed text can be told apart, whatever follows. -/
theorem reprText_append_inj (std : Stdlib)
    (heq : reprText std text ++ rest = reprText std other ++ otherRest) :
    text = other ∧ rest = otherRest := by
  simp only [reprText, List.cons_append, List.append_assoc, List.nil_append] at heq
  obtain ⟨hquote, htails⟩ := List.cons.inj heq
  rw [hquote] at htails
  exact escaped_append_inj std (isQuote_quoteFor other) htails

/-! ## Numbers -/

/-- The characters of a printed number. -/
def isNumeric (c : CodePoint) : Bool :=
  isDigit c || (0x61 ≤ c.val && c.val ≤ 0x7A) || c ∈ py "+-."

/-- What is assumed of the printed form of a float. -/
structure FloatsPrinted (std : Stdlib) : Prop where
  injective : Function.Injective std.floatRepr
  numeric : ∀ value, ∀ c ∈ std.floatRepr value, isNumeric c = true
  not_integer : ∀ value, ∃ c ∈ std.floatRepr value,
    isDigit c = false ∧ c ≠ CodePoint.ofChar '-'

theorem isNumeric_of_mem_intText {value : ℤ} (hc : c ∈ intText value) : isNumeric c = true := by
  rcases integer_of_mem_intText hc with hdigit | rfl
  · simp [isNumeric, hdigit]
  · decide

theorem intText_ne_floatRepr (hfloats : FloatsPrinted std) (n : ℤ) (value : PyFloat) :
    intText n ≠ std.floatRepr value := by
  intro heq
  obtain ⟨c, hc, hdigit, hminus⟩ := hfloats.not_integer value
  rw [← heq] at hc
  rcases integer_of_mem_intText hc with hinteger | hinteger
  · rw [hinteger] at hdigit
    exact absurd hdigit (by simp)
  · exact hminus hinteger

/-! ## Values -/

/-- What the first character of a printed value tells. -/
inductive Shape where
  | null
  | true
  | false
  | number
  | text
  | list
  | dict
  deriving DecidableEq

def shapeOf : Json → Shape
  | .null => .null
  | .bool true => .true
  | .bool false => .false
  | .int _ => .number
  | .float _ => .number
  | .str _ => .text
  | .arr _ => .list
  | .obj _ => .dict

def shapeOfHead (c : CodePoint) : Option Shape :=
  if isNumeric c then some .number
  else if c = apostrophe ∨ c = doubleQuote then some .text
  else if c = CodePoint.ofChar 'N' then some .null
  else if c = CodePoint.ofChar 'T' then some .true
  else if c = CodePoint.ofChar 'F' then some .false
  else if c = CodePoint.ofChar '[' then some .list
  else if c = CodePoint.ofChar '\x7b' then some .dict
  else none

theorem number_of_isNumeric (hc : isNumeric c = true) : shapeOfHead c = some .number :=
  if_pos hc

theorem exists_head_of_numeric (hne : text ≠ []) (hnumeric : ∀ c ∈ text, isNumeric c = true) :
    ∃ c tail, text = c :: tail ∧ shapeOfHead c = some .number := by
  obtain ⟨c, tail, rfl⟩ := List.exists_cons_of_ne_nil hne
  exact ⟨c, tail, rfl, number_of_isNumeric (hnumeric c List.mem_cons_self)⟩

theorem intText_ne_nil (n : ℤ) : intText n ≠ [] := by
  cases n with
  | ofNat n => exact decimal_ne_nil n
  | negSucc n => simp [intText, py]

theorem head_repr (hfloats : FloatsPrinted std) (value : Json) :
    ∃ c tail, repr std value = c :: tail ∧ shapeOfHead c = some (shapeOf value) := by
  cases value with
  | null => exact ⟨_, _, by rw [repr]; rfl, by decide⟩
  | bool flag =>
    cases flag with
    | true => exact ⟨_, _, by rw [repr]; rfl, by decide⟩
    | false => exact ⟨_, _, by rw [repr]; rfl, by decide⟩
  | int n =>
    rw [repr]
    exact exists_head_of_numeric (intText_ne_nil n) fun c hc => isNumeric_of_mem_intText hc
  | float value =>
    rw [repr]
    apply exists_head_of_numeric _ (hfloats.numeric value)
    obtain ⟨c, hc, _⟩ := hfloats.not_integer value
    exact List.ne_nil_of_mem hc
  | str text =>
    refine ⟨_, _, by rw [repr, reprText], ?_⟩
    rcases isQuote_quoteFor text with hquote | hquote
    · rw [hquote]
      exact (by decide : shapeOfHead apostrophe = some .text)
    · rw [hquote]
      exact (by decide : shapeOfHead doubleQuote = some .text)
  | arr items =>
    exact ⟨_, _, by rw [repr]; rfl, (by decide : shapeOfHead (CodePoint.ofChar '[') = some .list)⟩
  | obj fields =>
    exact ⟨_, _, by rw [repr]; rfl,
      (by decide : shapeOfHead (CodePoint.ofChar '\x7b') = some .dict)⟩

theorem eq_null_of_shape (hshape : Shape.null = shapeOf value) : value = .null := by
  unfold shapeOf at hshape
  split at hshape <;> first | rfl | cases hshape

theorem eq_bool_of_shape {flag : Bool} (hshape : shapeOf (.bool flag) = shapeOf value) :
    value = .bool flag := by
  cases flag with
  | true =>
    change Shape.true = shapeOf value at hshape
    unfold shapeOf at hshape
    split at hshape <;> first | rfl | cases hshape
  | false =>
    change Shape.false = shapeOf value at hshape
    unfold shapeOf at hshape
    split at hshape <;> first | rfl | cases hshape

theorem eq_number_of_shape (hshape : Shape.number = shapeOf value) :
    (∃ n, value = .int n) ∨ ∃ number, value = .float number := by
  unfold shapeOf at hshape
  split at hshape <;> first | exact Or.inl ⟨_, rfl⟩ | exact Or.inr ⟨_, rfl⟩ | cases hshape

theorem eq_str_of_shape (hshape : Shape.text = shapeOf value) : ∃ text, value = .str text := by
  unfold shapeOf at hshape
  split at hshape <;> first | exact ⟨_, rfl⟩ | cases hshape

theorem eq_arr_of_shape (hshape : Shape.list = shapeOf value) : ∃ items, value = .arr items := by
  unfold shapeOf at hshape
  split at hshape <;> first | exact ⟨_, rfl⟩ | cases hshape

theorem eq_obj_of_shape (hshape : Shape.dict = shapeOf value) : ∃ fields, value = .obj fields := by
  unfold shapeOf at hshape
  split at hshape <;> first | exact ⟨_, rfl⟩ | cases hshape

theorem shape_eq_of_repr_eq (hfloats : FloatsPrinted std) {other : Json}
    (heq : repr std value ++ rest = repr std other ++ otherRest) :
    shapeOf value = shapeOf other := by
  obtain ⟨c, tail, hvalue, hshape⟩ := head_repr hfloats value
  obtain ⟨d, otherTail, hother, hotherShape⟩ := head_repr hfloats other
  rw [hvalue, hother] at heq
  rw [(List.cons.inj heq).1, hotherShape] at hshape
  exact (Option.some.inj hshape).symm

theorem reprItems_eq_map (std : Stdlib) (items : List Json) :
    reprItems std items = items.map (repr std) := by
  induction items with
  | nil => rw [reprItems, List.map_nil]
  | cons item rest ih => rw [reprItems, ih, List.map_cons]

/-- A key and its value as a dictionary prints them. -/
def reprField (std : Stdlib) (entry : PyStr × Json) : PyStr :=
  reprText std entry.1 ++ py ": " ++ repr std entry.2

theorem reprFields_eq_map (std : Stdlib) (fields : List (PyStr × Json)) :
    reprFields std fields = fields.map (reprField std) := by
  induction fields with
  | nil => rw [reprFields, List.map_nil]
  | cons entry rest ih => rw [reprFields, ih, List.map_cons, reprField]

/-- The characters that may follow a printed value. -/
abbrev Delimiter (c : CodePoint) : Prop :=
  isNumeric c = false

theorem readBefore_reprField {entry : PyStr × Json}
    (hvalue : ReadBefore Delimiter (repr std) entry.2) :
    ReadBefore Delimiter (reprField std) entry := by
  intro other rest otherRest hrest hother heq
  simp only [reprField, List.append_assoc] at heq
  obtain ⟨hkey, hvalues⟩ := reprText_append_inj std heq
  obtain ⟨hsame, hrests⟩ := hvalue other.2 rest otherRest hrest hother
    (List.append_cancel_left hvalues)
  exact ⟨Prod.ext hkey hsame, hrests⟩

theorem exists_head_reprText (std : Stdlib) (text : PyStr) :
    ∃ c tail, reprText std text = c :: tail ∧ IsQuote c :=
  ⟨_, _, by rw [reprText], isQuote_quoteFor text⟩

theorem ne_of_isQuote (hquote : IsQuote c) (hd : d ∉ [apostrophe, doubleQuote]) : c ≠ d := by
  intro hsame
  rw [← hsame] at hd
  rcases hquote with rfl | rfl <;> simp at hd

theorem head_repr_ne (hfloats : FloatsPrinted std) (hd : shapeOfHead d = none) (value : Json) :
    ∃ c tail, repr std value = c :: tail ∧ c ≠ d := by
  obtain ⟨c, tail, hvalue, hshape⟩ := head_repr hfloats value
  refine ⟨c, tail, hvalue, ?_⟩
  intro hsame
  rw [hsame, hd] at hshape
  exact absurd hshape (by simp)

/-- Different values print differently, and a printed value ends at the next
delimiter. -/
theorem readBefore_repr (hfloats : FloatsPrinted std) (value : Json) :
    ReadBefore Delimiter (repr std) value := by
  induction value using Json.induction with
  | null =>
    intro other rest otherRest _ _ heq
    obtain rfl := eq_null_of_shape (shape_eq_of_repr_eq hfloats heq)
    exact ⟨rfl, List.append_cancel_left heq⟩
  | bool flag =>
    intro other rest otherRest _ _ heq
    obtain rfl := eq_bool_of_shape (shape_eq_of_repr_eq hfloats heq)
    exact ⟨rfl, List.append_cancel_left heq⟩
  | int n =>
    intro other rest otherRest hrest hother heq
    rcases eq_number_of_shape (shape_eq_of_repr_eq hfloats heq) with
      ⟨m, rfl⟩ | ⟨number, rfl⟩
    · rw [repr, repr] at heq
      obtain ⟨hsame, hrests⟩ := append_inj_of_class
        (fun c hc => isNumeric_of_mem_intText hc)
        (fun c hc => isNumeric_of_mem_intText hc) hrest hother heq
      exact ⟨by rw [intText_injective hsame], hrests⟩
    · rw [repr, repr] at heq
      have hsame := (append_inj_of_class (fun c hc => isNumeric_of_mem_intText hc)
        (hfloats.numeric number) hrest hother heq).1
      exact absurd hsame (intText_ne_floatRepr hfloats n number)
  | float value =>
    intro other rest otherRest hrest hother heq
    rcases eq_number_of_shape (shape_eq_of_repr_eq hfloats heq) with
      ⟨m, rfl⟩ | ⟨number, rfl⟩
    · rw [repr, repr] at heq
      have hsame := (append_inj_of_class (hfloats.numeric value)
        (fun c hc => isNumeric_of_mem_intText hc) hrest hother heq).1
      exact absurd hsame.symm (intText_ne_floatRepr hfloats m value)
    · rw [repr, repr] at heq
      obtain ⟨hsame, hrests⟩ := append_inj_of_class (hfloats.numeric value)
        (hfloats.numeric number) hrest hother heq
      exact ⟨by rw [hfloats.injective hsame], hrests⟩
  | str text =>
    intro other rest otherRest _ _ heq
    obtain ⟨otherText, rfl⟩ := eq_str_of_shape (shape_eq_of_repr_eq hfloats heq)
    rw [repr, repr] at heq
    obtain ⟨hsame, hrests⟩ := reprText_append_inj std heq
    exact ⟨by rw [hsame], hrests⟩
  | arr items ih =>
    intro other rest otherRest _ _ heq
    obtain ⟨otherItems, rfl⟩ := eq_arr_of_shape (shape_eq_of_repr_eq hfloats heq)
    rw [repr, repr, reprItems_eq_map, reprItems_eq_map] at heq
    simp only [List.append_assoc] at heq
    obtain ⟨hsame, hrests⟩ := intercalate_inj (by decide) (by decide) (by decide)
      (head_repr_ne hfloats (by decide)) ih (List.append_cancel_left heq)
    exact ⟨by rw [hsame], hrests⟩
  | obj fields ih =>
    intro other rest otherRest _ _ heq
    obtain ⟨otherFields, rfl⟩ := eq_obj_of_shape (shape_eq_of_repr_eq hfloats heq)
    rw [repr, repr, reprFields_eq_map, reprFields_eq_map] at heq
    simp only [List.append_assoc] at heq
    have hhead : ∀ entry : PyStr × Json, ∃ c tail, reprField std entry = c :: tail ∧
        c ≠ CodePoint.ofChar '\x7d' := by
      intro entry
      obtain ⟨c, tail, hkey, hquote⟩ := exists_head_reprText std entry.1
      exact ⟨c, _, by rw [reprField, hkey]; rfl, ne_of_isQuote hquote (by decide)⟩
    obtain ⟨hsame, hrests⟩ := intercalate_inj (by decide) (by decide) (by decide)
      hhead (fun entry hentry => readBefore_reprField (ih entry hentry))
      (List.append_cancel_left heq)
    exact ⟨by rw [hsame], hrests⟩

/-! ## The library for runs on fixed inputs -/

/-- The printed fraction of `asciiStdlib`. -/
def fraction (magnitude : ℚ≥0) : PyStr :=
  decimal magnitude.num ++ py "." ++ decimal magnitude.den

theorem fraction_injective : Function.Injective fraction := by
  intro left right heq
  simp only [fraction, List.append_assoc] at heq
  have hpoint : ∀ (tail : PyStr), ∀ c ∈ (py "." ++ tail).head?, isDigit c = false := by
    intro tail c hc
    obtain rfl := Option.some.inj hc
    decide
  obtain ⟨hnum, hrest⟩ := append_inj_of_class isDigit_of_mem_decimal
    isDigit_of_mem_decimal (hpoint _) (hpoint _) heq
  exact NNRat.ext_num_den (decimal_injective hnum)
    (decimal_injective (List.append_cancel_left hrest))

theorem fraction_ne (magnitude : ℚ≥0) (htext : ∀ c ∈ text.head?, isDigit c = false) :
    fraction magnitude ≠ text := by
  intro heq
  obtain ⟨c, tail, hdigits⟩ := List.exists_cons_of_ne_nil (decimal_ne_nil magnitude.num)
  have hc : isDigit c = true :=
    isDigit_of_mem_decimal c (hdigits ▸ List.mem_cons_self)
  have hhead : text.head? = some c := by
    rw [← heq, fraction, hdigits]
    rfl
  rw [htext c hhead] at hc
  exact absurd hc (by simp)

theorem floatRepr_negative (magnitude : ℚ≥0) :
    asciiStdlib.floatRepr (.finite true magnitude) = py "-" ++ fraction magnitude := by
  simp [asciiStdlib, fraction, List.append_assoc]

theorem asciiStdlib_floatRepr_injective : Function.Injective asciiStdlib.floatRepr := by
  have hnan : ∀ magnitude, fraction magnitude ≠ py "nan" := fun magnitude =>
    fraction_ne magnitude fun c hc => Option.some.inj hc ▸ by decide
  have hinf : ∀ magnitude, fraction magnitude ≠ py "inf" := fun magnitude =>
    fraction_ne magnitude fun c hc => Option.some.inj hc ▸ by decide
  have hminus : ∀ magnitude rest, fraction magnitude ≠ py "-" ++ rest :=
    fun magnitude rest =>
      fraction_ne magnitude fun c hc => Option.some.inj hc ▸ by decide
  have hnegative : ∀ magnitude, py "-" ++ fraction magnitude ≠ py "-inf" :=
    fun magnitude heq => hinf magnitude (List.append_cancel_left heq)
  intro left right heq
  cases left with
  | nan =>
    cases right with
    | nan => rfl
    | inf negative => cases negative <;> exact absurd heq (by decide)
    | finite negative magnitude =>
      cases negative with
      | false => exact absurd heq.symm (hnan magnitude)
      | true => exact absurd (List.cons.inj heq).1 (by decide)
  | inf negative =>
    cases right with
    | nan => cases negative <;> exact absurd heq (by decide)
    | inf other => cases negative <;> cases other <;> first | rfl | exact absurd heq (by decide)
    | finite other magnitude =>
      cases negative <;> cases other
      · exact absurd heq.symm (hinf magnitude)
      · exact absurd (List.cons.inj heq).1 (by decide)
      · exact absurd heq.symm (hminus magnitude (py "inf"))
      · exact absurd heq.symm (hnegative magnitude)
  | finite negative magnitude =>
    cases right with
    | nan =>
      cases negative with
      | false => exact absurd heq (hnan magnitude)
      | true => exact absurd (List.cons.inj heq).1 (by decide)
    | inf other =>
      cases negative <;> cases other
      · exact absurd heq (hinf magnitude)
      · exact absurd heq (hminus magnitude (py "inf"))
      · exact absurd (List.cons.inj heq).1 (by decide)
      · exact absurd heq (hnegative magnitude)
    | finite other otherMagnitude =>
      cases negative <;> cases other
      · rw [fraction_injective heq]
      · rw [floatRepr_negative] at heq
        exact absurd heq (hminus magnitude (fraction otherMagnitude))
      · rw [floatRepr_negative] at heq
        exact absurd heq.symm (hminus otherMagnitude (fraction magnitude))
      · rw [floatRepr_negative, floatRepr_negative] at heq
        rw [fraction_injective (List.append_cancel_left heq)]

theorem isNumeric_of_mem_fraction {magnitude : ℚ≥0} (hc : c ∈ fraction magnitude) :
    isNumeric c = true := by
  have hdigit : ∀ {n : ℕ}, ∀ c ∈ decimal n, isNumeric c = true := by
    intro n c hc
    simp [isNumeric, isDigit_of_mem_decimal c hc]
  rcases List.mem_append.mp hc with hleft | hden
  · rcases List.mem_append.mp hleft with hnum | hpoint
    · exact hdigit c hnum
    · rw [List.mem_singleton.mp hpoint]
      decide
  · exact hdigit c hden

theorem floatsPrinted_asciiStdlib : FloatsPrinted asciiStdlib where
  injective := asciiStdlib_floatRepr_injective
  numeric := by
    intro value c hc
    cases value with
    | nan => exact List.all_eq_true.mp (by decide) c hc
    | inf negative => cases negative <;> exact List.all_eq_true.mp (by decide) c hc
    | finite negative magnitude =>
      cases negative with
      | false => exact isNumeric_of_mem_fraction hc
      | true =>
        rw [floatRepr_negative] at hc
        rcases List.mem_append.mp hc with hminus | hfraction
        · rw [List.mem_singleton.mp hminus]
          decide
        · exact isNumeric_of_mem_fraction hfraction
  not_integer := by
    intro value
    have hpoint : ∀ magnitude, CodePoint.ofChar '.' ∈ fraction magnitude := fun magnitude =>
      List.mem_append_left _ (List.mem_append_right _ List.mem_cons_self)
    cases value with
    | nan => exact ⟨CodePoint.ofChar 'n', by decide, by decide⟩
    | inf negative => cases negative <;> exact ⟨CodePoint.ofChar 'n', by decide, by decide⟩
    | finite negative magnitude =>
      cases negative with
      | false => exact ⟨CodePoint.ofChar '.', hpoint magnitude, by decide⟩
      | true =>
        rw [floatRepr_negative]
        exact ⟨CodePoint.ofChar '.', List.mem_append_right _ (hpoint magnitude), by decide⟩

/-! ## What is printed can be encoded -/

theorem encodable_flatMap {f : CodePoint → PyStr} (hf : ∀ c, Encodable (f c)) (text : PyStr) :
    Encodable (text.flatMap f) := by
  intro c hc
  obtain ⟨source, -, hmem⟩ := List.mem_flatMap.mp hc
  exact hf source c hmem

theorem encodable_join {separator : PyStr} {parts : List PyStr} (hseparator : Encodable separator)
    (hparts : ∀ part ∈ parts, Encodable part) : Encodable (join separator parts) := by
  intro c hc
  rcases mem_of_mem_join hc with hmem | ⟨part, hpart, hmem⟩
  · exact hseparator c hmem
  · exact hparts part hpart c hmem

theorem encodable_intText (value : ℤ) : Encodable (intText value) := by
  have hdecimal : ∀ n : ℕ, Encodable (decimal n) := fun n => by
    simpa [py, decimal] using encodable_py (String.ofList (Nat.toDigits 10 n))
  cases value with
  | ofNat n => exact hdecimal n
  | negSucc n => exact encodable_append.mpr ⟨encodable_py "-", hdecimal (n + 1)⟩

theorem encodable_hex (width n : ℕ) : Encodable (hex width n) := by
  induction width generalizing n with
  | zero => exact encodable_nil
  | succ width ih =>
    refine encodable_append.mpr ⟨ih _, fun c hc => ?_⟩
    rw [List.mem_singleton.mp hc, hexDigit]
    split
    all_goals
      simp only [isSurrogate, Bool.and_eq_false_iff, decide_eq_false_iff_not]
      omega

theorem encodable_escapeChar (std : Stdlib) (hquote : isSurrogate quote = false) (c : CodePoint) :
    Encodable (escapeChar std quote c) := by
  have hmark : ∀ mark : Char, Encodable [backslash, CodePoint.ofChar mark] := fun mark =>
    encodable_append.mpr ⟨encodable_py "\\", by simpa [py] using encodable_py (String.singleton mark)⟩
  have hpair : ∀ d, isSurrogate d = false → Encodable [backslash, d] := fun d hd =>
    encodable_append.mpr ⟨encodable_py "\\", by simpa [Encodable] using hd⟩
  unfold escapeChar
  split
  · next hsame => exact hsame.elim (fun h => hpair c (h ▸ hquote)) fun h => hpair c (h ▸ by decide)
  split
  · exact hmark 't'
  split
  · exact hmark 'n'
  split
  · exact hmark 'r'
  split
  · exact encodable_append.mpr ⟨hmark 'x', encodable_hex _ _⟩
  split
  · next hsmall =>
    have hplain : isSurrogate c = false := by
      simp only [isSurrogate, Bool.and_eq_false_iff, decide_eq_false_iff_not]
      omega
    simpa [Encodable] using hplain
  split
  · next hprintable =>
    rw [isPrintable, Bool.and_eq_true, Bool.not_eq_true'] at hprintable
    simpa [Encodable] using hprintable.1
  split
  · exact encodable_append.mpr ⟨hmark 'x', encodable_hex _ _⟩
  split
  · exact encodable_append.mpr ⟨hmark 'u', encodable_hex _ _⟩
  · exact encodable_append.mpr ⟨hmark 'U', encodable_hex _ _⟩

theorem encodable_reprText (std : Stdlib) (text : PyStr) : Encodable (reprText std text) := by
  have hquote : isSurrogate (quoteFor text) = false := by
    rw [quoteFor]
    split <;> decide
  have hsingle : Encodable [quoteFor text] := by simpa [Encodable] using hquote
  exact encodable_append.mpr ⟨hsingle, encodable_append.mpr
    ⟨encodable_flatMap (encodable_escapeChar std hquote) text, hsingle⟩⟩

/-- `repr` escapes what cannot be encoded. -/
theorem encodable_repr (hfloat : ∀ number, Encodable (std.floatRepr number)) (value : Json) :
    Encodable (repr std value) := by
  induction value using Json.induction with
  | null => exact encodable_py "None"
  | bool flag => cases flag <;> exact encodable_py _
  | int number => exact encodable_intText number
  | float number => exact hfloat number
  | str text => exact encodable_reprText std text
  | arr items ih =>
    rw [repr, reprItems_eq_map]
    refine encodable_append.mpr ⟨encodable_append.mpr ⟨encodable_py "[", ?_⟩, encodable_py "]"⟩
    refine encodable_join (encodable_py ", ") fun part hpart => ?_
    obtain ⟨item, hitem, rfl⟩ := List.mem_map.mp hpart
    exact ih item hitem
  | obj fields ih =>
    rw [repr, reprFields_eq_map]
    refine encodable_append.mpr
      ⟨encodable_append.mpr ⟨encodable_py "\x7b", ?_⟩, encodable_py "\x7d"⟩
    refine encodable_join (encodable_py ", ") fun part hpart => ?_
    obtain ⟨field, hfield, rfl⟩ := List.mem_map.mp hpart
    exact encodable_append.mpr
      ⟨encodable_append.mpr ⟨encodable_reprText std _, encodable_py ": "⟩, ih field hfield⟩

end RootSeeker.Python
