import RootSeeker.Python.JsonBalance
import RootSeeker.Python.Words

/-!
# The texts of a JSON value

Which texts are serialisations of a value: any white space between the tokens,
any choice of escapes in a string, keys in any order but each of them once.  The
decoder reads every one of them back as that value, as far as the interpreter's
limits reach.
-/

namespace RootSeeker.Python

def Blank (text : PyStr) : Prop :=
  ∀ c ∈ text, isJsonBlank c = true

/-- A text that begins with the escape of a low surrogate. -/
def StartsLow (text : PyStr) : Prop :=
  ∃ digits low rest, digits.length = 4 ∧ hexNumber digits = some low ∧
    isLowSurrogate low = true ∧ text = backslash :: letterU :: (digits ++ rest)

/-- What stands between the quotes for a string. -/
inductive StringBody : PyStr → PyStr → Prop
  | nil : StringBody [] []
  | plain {c : CodePoint} {text value : PyStr} (hquote : c ≠ doubleQuote)
      (hescape : c ≠ backslash) (hprinted : 0x20 ≤ c.val) (hrest : StringBody text value) :
      StringBody (c :: text) (c :: value)
  | short {mark c : CodePoint} {text value : PyStr} (hmark : mark ≠ letterU)
      (hshort : shortEscape mark = some c) (hrest : StringBody text value) :
      StringBody (backslash :: mark :: text) (c :: value)
  | unit {digits text value : PyStr} {unit : ℕ} (hlength : digits.length = 4)
      (hunit : hexNumber digits = some unit)
      (halone : isHighSurrogate unit = true → ¬StartsLow text) (hrest : StringBody text value) :
      StringBody (backslash :: letterU :: (digits ++ text)) (Fin.ofNat 0x110000 unit :: value)
  | pair {digits others text value : PyStr} {high low : ℕ} (hlength : digits.length = 4)
      (hhigh : hexNumber digits = some high) (hisHigh : isHighSurrogate high = true)
      (hothers : others.length = 4) (hlow : hexNumber others = some low)
      (hisLow : isLowSurrogate low = true) (hrest : StringBody text value) :
      StringBody
        (backslash :: letterU :: (digits ++ backslash :: letterU :: (others ++ text)))
        (joinSurrogates high low :: value)

def IsDigits (text : PyStr) : Prop :=
  ∀ c ∈ text, isDigit c = true

/-- A zero, or digits that do not begin with one. -/
inductive IsWhole : PyStr → Prop
  | zero : IsWhole [CodePoint.ofChar '0']
  | digits {c : CodePoint} {rest : PyStr} (hzero : c ≠ CodePoint.ofChar '0')
      (hdigits : IsDigits (c :: rest)) : IsWhole (c :: rest)

inductive IsFraction : PyStr → Prop
  | none : IsFraction []
  | digits {rest : PyStr} (hne : rest ≠ []) (hdigits : IsDigits rest) :
      IsFraction (dotChar :: rest)

inductive IsExponent : PyStr → Prop
  | none : IsExponent []
  | digits {mark : CodePoint} {sign rest : PyStr}
      (hmark : mark = CodePoint.ofChar 'e' ∨ mark = CodePoint.ofChar 'E')
      (hsign : sign = [] ∨ ∃ c, isExponentSign c = true ∧ sign = [c])
      (hne : rest ≠ []) (hdigits : IsDigits rest) : IsExponent (mark :: (sign ++ rest))

structure NumberText.WellFormed (number : NumberText) : Prop where
  sign : number.sign = [] ∨ number.sign = [minusChar]
  whole : IsWhole number.whole
  fraction : IsFraction number.fraction
  exponent : IsExponent number.exponent

mutual

/-- The text is a serialisation of the value. -/
inductive Writes (std : Stdlib) : PyStr → Json → Prop
  | constant {word : PyStr} {value : Json} (hword : (word, value) ∈ jsonConstants) :
      Writes std word value
  | number {number : NumberText} {value : Json} (hnumber : number.WellFormed)
      (hvalue : number.value std = some value) : Writes std number.text value
  | str {body value : PyStr} (hbody : StringBody body value) :
      Writes std (doubleQuote :: (body ++ [doubleQuote])) (.str value)
  | emptyArr {blank : PyStr} (hblank : Blank blank) :
      Writes std (openBracket :: (blank ++ [closeBracket])) (.arr [])
  | arr {pieces : List PyStr} {items : List Json} (hne : pieces ≠ [])
      (hitems : List.Forall₂ (WritesItem std) pieces items) :
      Writes std (openBracket :: (join [commaChar] pieces ++ [closeBracket])) (.arr items)
  | emptyObj {blank : PyStr} (hblank : Blank blank) :
      Writes std (openBrace :: (blank ++ [closeBrace])) (.obj [])
  | obj {pieces : List PyStr} {fields : List (PyStr × Json)} (hne : pieces ≠ [])
      (hdistinct : (Dict.keys fields).Nodup)
      (hfields : List.Forall₂ (WritesField std) pieces fields) :
      Writes std (openBrace :: (join [commaChar] pieces ++ [closeBrace])) (.obj fields)

/-- A value with white space around it. -/
inductive WritesItem (std : Stdlib) : PyStr → Json → Prop
  | padded {before text after : PyStr} {value : Json} (hbefore : Blank before)
      (hafter : Blank after) (hvalue : Writes std text value) :
      WritesItem std (before ++ (text ++ after)) value

/-- A key, a colon and a value with white space around each of them. -/
inductive WritesField (std : Stdlib) : PyStr → PyStr × Json → Prop
  | padded {before body key middle text : PyStr} {value : Json} (hbefore : Blank before)
      (hkey : StringBody body key) (hmiddle : Blank middle) (hvalue : WritesItem std text value) :
      WritesField std
        (before ++ (doubleQuote :: (body ++ doubleQuote :: (middle ++ colonChar :: text))))
        (key, value)

end

/-! ## Strings -/

theorem readHex4_append {digits : PyStr} {unit : ℕ} (hlength : digits.length = 4)
    (hnumber : hexNumber digits = some unit) (rest : PyStr) :
    readHex4 (digits ++ rest) = some (unit, rest) := by
  have htake : (digits ++ rest).take 4 = digits := by
    rw [← hlength, List.take_left]
  have hdrop : (digits ++ rest).drop 4 = rest := by
    rw [← hlength, List.drop_left]
  rw [readHex4, htake, hdrop, if_pos hlength, hnumber]
  rfl

theorem StringBody.readLowSurrogate_eq_none {text value : PyStr} (hbody : StringBody text value)
    (halone : ¬StartsLow text) (rest : PyStr) :
    readLowSurrogate (text ++ doubleQuote :: rest) = none := by
  have hfirst : ∀ {c : CodePoint} {after : PyStr}, c ≠ backslash →
      readLowSurrogate (c :: after) = none := by
    intro c after hc
    cases after with
    | nil => rfl
    | cons d after => rw [readLowSurrogate, if_neg fun hboth => hc hboth.1]
  cases hbody with
  | nil => exact hfirst (by decide)
  | plain hquote hescape _ _ => exact hfirst hescape
  | short hmark _ _ =>
    rw [List.cons_append, List.cons_append, readLowSurrogate, if_neg fun hboth => hmark hboth.2]
  | @unit digits after _ unit hlength hunit _ _ =>
    rw [List.cons_append, List.cons_append, List.append_assoc, readLowSurrogate,
      if_pos ⟨rfl, rfl⟩, readHex4_append hlength hunit]
    apply Option.filter_some_neg
    exact Bool.eq_false_iff.mpr fun hlow =>
      halone ⟨digits, unit, after, hlength, hunit, hlow, rfl⟩
  | @pair digits others after _ high low hlength hhigh hisHigh _ _ _ _ =>
    rw [List.cons_append, List.cons_append, List.append_assoc, readLowSurrogate,
      if_pos ⟨rfl, rfl⟩, readHex4_append hlength hhigh]
    apply Option.filter_some_neg
    exact Bool.eq_false_iff.mpr fun hlow =>
      halone ⟨digits, high, _, hlength, hhigh, hlow, rfl⟩

theorem joinUnit_alone {unit : ℕ} {rest : PyStr}
    (halone : isHighSurrogate unit = true → readLowSurrogate rest = none) :
    joinUnit unit rest = (Fin.ofNat 0x110000 unit, rest) := by
  have hnone : (if isHighSurrogate unit then readLowSurrogate rest else none) = none := by
    split
    · next hhigh => exact halone hhigh
    · rfl
  rw [joinUnit, hnone]

theorem joinUnit_pair {high low : ℕ} {others : PyStr} (hisHigh : isHighSurrogate high = true)
    (hothers : others.length = 4) (hlow : hexNumber others = some low)
    (hisLow : isLowSurrogate low = true) (rest : PyStr) :
    joinUnit high (backslash :: letterU :: (others ++ rest)) = (joinSurrogates high low, rest) := by
  have hread : readLowSurrogate (backslash :: letterU :: (others ++ rest)) = some (low, rest) := by
    rw [readLowSurrogate, if_pos ⟨rfl, rfl⟩, readHex4_append hothers hlow]
    exact Option.filter_some_pos hisLow
  rw [joinUnit, if_pos hisHigh, hread]

/-- What is read at the front of a string, with the escape it begins with. -/
theorem scanString_escape {steps : ℕ} {text : PyStr} {c : CodePoint} {after : PyStr}
    (hescape : readEscape text = some (c, after)) :
    scanString (steps + 1) (backslash :: text) =
      (scanString steps after).map fun tail => (c :: tail.1, tail.2) := by
  rw [scanString, if_neg (by decide), if_pos rfl, hescape, Option.bind_some]

theorem StringBody.scanString {text value : PyStr} (hbody : StringBody text value) {steps : ℕ}
    (hsteps : text.length < steps) (rest : PyStr) :
    scanString steps (text ++ doubleQuote :: rest) = some (value, rest) := by
  induction hbody generalizing steps with
  | nil =>
    cases steps with
    | zero => exact absurd hsteps (by simp)
    | succ steps => rw [List.nil_append, Python.scanString, if_pos rfl]
  | plain hquote hescape hprinted _ ih =>
    cases steps with
    | zero => exact absurd hsteps (by simp)
    | succ steps =>
      rw [List.cons_append, Python.scanString, if_neg hquote, if_neg hescape,
        if_neg (by omega), ih (Nat.lt_of_succ_lt_succ hsteps)]
      rfl
  | @short mark c text _ hmark hshort _ ih =>
    cases steps with
    | zero => exact absurd hsteps (by simp)
    | succ steps =>
      have hescape : readEscape (mark :: (text ++ doubleQuote :: rest)) =
          some (c, text ++ doubleQuote :: rest) := by
        rw [readEscape, if_neg hmark, hshort]
        rfl
      rw [List.cons_append, List.cons_append, scanString_escape hescape,
        ih (Nat.lt_of_succ_lt (Nat.lt_of_succ_lt_succ hsteps))]
      rfl
  | @unit digits text _ unit hlength hunit halone hrest ih =>
    cases steps with
    | zero => exact absurd hsteps (by simp)
    | succ steps =>
      have hescape : readEscape (letterU :: (digits ++ (text ++ doubleQuote :: rest))) =
          some (Fin.ofNat 0x110000 unit, text ++ doubleQuote :: rest) := by
        rw [readEscape, if_pos rfl, readUnicodeEscape, readHex4_append hlength hunit,
          Option.map_some, joinUnit_alone]
        exact fun hhigh => hrest.readLowSurrogate_eq_none (halone hhigh) rest
      simp only [List.length_cons, List.length_append, hlength] at hsteps
      rw [List.cons_append, List.cons_append, List.append_assoc, scanString_escape hescape,
        ih (by omega)]
      rfl
  | @pair digits others text _ high low hlength hhigh hisHigh hothers hlow hisLow _ ih =>
    cases steps with
    | zero => exact absurd hsteps (by simp)
    | succ steps =>
      have hescape : readEscape (letterU :: (digits ++ (backslash :: letterU :: (others ++
          (text ++ doubleQuote :: rest))))) =
            some (joinSurrogates high low, text ++ doubleQuote :: rest) := by
        rw [readEscape, if_pos rfl, readUnicodeEscape, readHex4_append hlength hhigh,
          Option.map_some, joinUnit_pair hisHigh hothers hlow hisLow]
      simp only [List.length_cons, List.length_append, hlength, hothers] at hsteps
      rw [List.cons_append, List.cons_append, List.append_assoc, List.cons_append,
        List.cons_append, List.append_assoc, scanString_escape hescape, ih (by omega)]
      rfl

/-- A character that a string may hold as it is. -/
def isPlainChar (c : CodePoint) : Bool :=
  c ≠ doubleQuote && c ≠ backslash && 0x20 ≤ c.val

/-- A string without anything to escape is written as it is. -/
theorem StringBody.of_plain {text : PyStr} (hplain : text.all isPlainChar = true) :
    StringBody text text := by
  induction text with
  | nil => exact StringBody.nil
  | cons c text ih =>
    rw [List.all_cons, Bool.and_eq_true] at hplain
    simp only [isPlainChar, Bool.and_eq_true, decide_eq_true_eq] at hplain
    exact StringBody.plain hplain.1.1.1 hplain.1.1.2 hplain.1.2 (ih hplain.2)

theorem StringBody.readString {text value : PyStr} (hbody : StringBody text value)
    (rest : PyStr) : readString (text ++ doubleQuote :: rest) = .ok (value, rest) := by
  rw [Python.readString, hbody.scanString (by simp) rest]

/-! ## Numbers and constants -/

/-- What may follow a value. -/
def isJsonEnd (c : CodePoint) : Bool :=
  isJsonBlank c || c = commaChar || c = closeBracket || c = closeBrace

def Ends (rest : PyStr) : Prop :=
  ∀ c ∈ rest.head?, isJsonEnd c = true

theorem ends_of_blank {blank : PyStr} {c : CodePoint} {rest : PyStr} (hblank : Blank blank)
    (hc : isJsonEnd c = true) : Ends (blank ++ c :: rest) := by
  intro d hd
  cases blank with
  | nil => rwa [← Option.some.inj hd]
  | cons first blank =>
    rw [← Option.some.inj hd, isJsonEnd, hblank first List.mem_cons_self]
    rfl

/-- Digits end where something else comes next. -/
theorem IsDigits.append {digits rest : PyStr} (hdigits : IsDigits digits)
    (hrest : ∀ c ∈ rest.head?, isDigit c = false) :
    (digits ++ rest).takeWhile isDigit = digits ∧ (digits ++ rest).dropWhile isDigit = rest := by
  have htake := Framing.takeWhile_append hdigits hrest
  have hwhole : (digits ++ rest).takeWhile isDigit ++ (digits ++ rest).dropWhile isDigit = _ :=
    List.takeWhile_append_dropWhile
  rw [htake] at hwhole
  exact ⟨htake, List.append_cancel_left hwhole⟩

section NumberEnd

variable {rest : PyStr} (hends : Ends rest)

include hends

theorem head_ne_of_ends {c : CodePoint} (hc : isJsonEnd c = false) : rest.head? ≠ some c := by
  intro hhead
  exact absurd (hends c hhead) (by simp [hc])

theorem not_isDigit_of_ends : ∀ c ∈ rest.head?, isDigit c = false := by
  intro c hc
  have hend := hends c hc
  simp only [isJsonEnd, isJsonBlank, Bool.or_eq_true, decide_eq_true_eq] at hend
  rw [Bool.eq_false_iff]
  intro hdigit
  simp only [isDigit, Bool.and_eq_true, decide_eq_true_eq] at hdigit
  obtain ((hblank | rfl) | rfl) | rfl := hend
  · omega
  · exact absurd hdigit (by decide)
  · exact absurd hdigit (by decide)
  · exact absurd hdigit (by decide)

theorem splitExponent_append {exponent : PyStr} (hexponent : IsExponent exponent) :
    splitExponent (exponent ++ rest) = (exponent, rest) := by
  cases hexponent with
  | none =>
    cases rest with
    | nil => rfl
    | cons c rest =>
      have hlower := head_ne_of_ends hends (c := CodePoint.ofChar 'e') (by decide)
      have hupper := head_ne_of_ends hends (c := CodePoint.ofChar 'E') (by decide)
      rw [List.nil_append, splitExponent, if_neg]
      exact fun hboth => hboth.1.elim (fun he => hlower (by rw [he]; rfl))
        (fun he => hupper (by rw [he]; rfl))
  | @digits mark sign digits hmark hsign hne hdigits =>
    have hsplit : splitExponentSign (sign ++ (digits ++ rest)) = (sign, digits ++ rest) := by
      cases hsign with
      | inl hnil =>
        rw [hnil, List.nil_append]
        cases digits with
        | nil => exact absurd rfl hne
        | cons d digits =>
          rw [List.cons_append, splitExponentSign, if_neg]
          have hd := hdigits d List.mem_cons_self
          simp only [isDigit, Bool.and_eq_true, decide_eq_true_eq] at hd
          simp only [isExponentSign, Bool.or_eq_true, decide_eq_true_eq, not_or]
          constructor
          · rintro rfl
            exact absurd hd (by decide)
          · rintro rfl
            exact absurd hd (by decide)
      | inr hone =>
        obtain ⟨c, hc, rfl⟩ := hone
        rw [List.singleton_append, splitExponentSign, if_pos hc]
    obtain ⟨htake, hdrop⟩ := hdigits.append (not_isDigit_of_ends hends)
    rw [List.cons_append, List.append_assoc, splitExponent, hsplit]
    simp only [htake, hdrop]
    rw [if_pos ⟨hmark, hne⟩]

theorem not_isDigit_of_exponent {exponent : PyStr} (hexponent : IsExponent exponent) :
    ∀ c ∈ (exponent ++ rest).head?, isDigit c = false := by
  cases hexponent with
  | none => exact not_isDigit_of_ends hends
  | digits hmark _ _ _ =>
    intro c hc
    rw [← Option.some.inj hc]
    cases hmark with
    | inl hlower => rw [hlower]; decide
    | inr hupper => rw [hupper]; decide

theorem splitFraction_append {fraction exponent : PyStr} (hfraction : IsFraction fraction)
    (hexponent : IsExponent exponent) :
    splitFraction (fraction ++ (exponent ++ rest)) = (fraction, exponent ++ rest) := by
  cases hfraction with
  | none =>
    have hdot : (exponent ++ rest).head? ≠ some dotChar := by
      cases hexponent with
      | none => exact head_ne_of_ends hends (by decide)
      | digits hmark _ _ _ =>
        intro hhead
        rw [Option.some.inj hhead] at hmark
        exact absurd hmark (by decide)
    rw [List.nil_append]
    cases hlater : exponent ++ rest with
    | nil => rfl
    | cons c later =>
      rw [hlater] at hdot
      rw [splitFraction, if_neg]
      exact fun hboth => hdot (by rw [hboth.1]; rfl)
  | digits hne hdigits =>
    obtain ⟨htake, hdrop⟩ := hdigits.append (not_isDigit_of_exponent hends hexponent)
    rw [List.cons_append, splitFraction, htake, hdrop, if_pos ⟨rfl, hne⟩]

theorem not_isDigit_of_fraction {fraction exponent : PyStr} (hfraction : IsFraction fraction)
    (hexponent : IsExponent exponent) :
    ∀ c ∈ (fraction ++ (exponent ++ rest)).head?, isDigit c = false := by
  cases hfraction with
  | none => exact not_isDigit_of_exponent hends hexponent
  | digits _ _ =>
    intro c hc
    rw [← Option.some.inj hc]
    decide

end NumberEnd

theorem IsWhole.splitWhole_append {whole rest : PyStr} (hwhole : IsWhole whole)
    (hrest : ∀ c ∈ rest.head?, isDigit c = false) :
    splitWhole (whole ++ rest) = some (whole, rest) := by
  cases hwhole with
  | zero => rw [List.singleton_append, splitWhole, if_pos rfl]
  | @digits c digits hzero hdigits =>
    have hsplit := List.forall_mem_cons.mp hdigits
    obtain ⟨htake, hdrop⟩ := IsDigits.append hsplit.2 hrest
    rw [List.cons_append, splitWhole, if_neg hzero, if_pos hsplit.1, htake, hdrop]

/-- A number begins with a digit, after its sign. -/
theorem IsWhole.exists_digit {whole : PyStr} (hwhole : IsWhole whole) :
    ∃ c rest, whole = c :: rest ∧ isDigit c = true := by
  cases hwhole with
  | zero => exact ⟨_, [], rfl, by decide⟩
  | digits _ hdigits => exact ⟨_, _, rfl, hdigits _ List.mem_cons_self⟩

theorem NumberText.WellFormed.splitSign_append {number : NumberText}
    (hnumber : number.WellFormed) (rest : PyStr) :
    splitSign (number.text ++ rest) =
      (number.sign, number.whole ++ (number.fraction ++ (number.exponent ++ rest))) := by
  rw [NumberText.text, List.append_assoc, List.append_assoc, List.append_assoc]
  cases hnumber.sign with
  | inl hnone =>
    obtain ⟨c, later, hc, hdigit⟩ := hnumber.whole.exists_digit
    rw [hnone, List.nil_append, hc, List.cons_append, splitSign, if_neg]
    intro hminus
    rw [show c = minusChar from Option.some.inj hminus] at hdigit
    exact absurd hdigit (by decide)
  | inr hminus =>
    rw [hminus, List.singleton_append, splitSign, if_pos (by rfl)]
    rfl

theorem NumberText.WellFormed.splitNumber_append {number : NumberText}
    (hnumber : number.WellFormed) {rest : PyStr} (hends : Ends rest) :
    splitNumber (number.text ++ rest) = some (number, rest) := by
  rw [splitNumber, hnumber.splitSign_append, hnumber.whole.splitWhole_append
    (not_isDigit_of_fraction hends hnumber.fraction hnumber.exponent), Option.map_some,
    splitFraction_append hends hnumber.fraction hnumber.exponent,
    splitExponent_append hends hnumber.exponent]

theorem le_readDecimal {c : CodePoint} {digits : PyStr} (hzero : c ≠ CodePoint.ofChar '0')
    (hdigits : IsDigits (c :: digits)) : 10 ^ digits.length ≤ Url.readDecimal (c :: digits) := by
  have hfold : ∀ start, start * 10 ^ digits.length ≤
      digits.foldl (fun value c => value * 10 + (c.val - 0x30)) start := by
    clear hdigits
    induction digits with
    | nil => exact fun start => by simp
    | cons d digits ih =>
      intro start
      calc start * 10 ^ (d :: digits).length
          = start * 10 * 10 ^ digits.length := by
            rw [List.length_cons, pow_succ]
            ring
        _ ≤ (start * 10 + (d.val - 0x30)) * 10 ^ digits.length :=
            Nat.mul_le_mul_right _ (Nat.le_add_right _ _)
        _ ≤ _ := ih _
  have hc := hdigits c List.mem_cons_self
  simp only [isDigit, Bool.and_eq_true, decide_eq_true_eq] at hc
  have hne : c.val ≠ 0x30 := fun heq => hzero (Fin.ext heq)
  have hone : 1 * 10 ^ digits.length ≤ (0 * 10 + (c.val - 0x30)) * 10 ^ digits.length :=
    Nat.mul_le_mul_right _ (by omega)
  rw [one_mul] at hone
  exact hone.trans (hfold _)

theorem IsWhole.length_le {whole : PyStr} (hwhole : IsWhole whole) {limit : ℕ} (hlimit : 0 < limit)
    (hvalue : Url.readDecimal whole < 10 ^ limit) : whole.length ≤ limit := by
  cases hwhole with
  | zero => exact hlimit
  | @digits c rest hzero hdigits =>
    by_contra hlong
    have hle : limit ≤ rest.length := Nat.lt_succ_iff.mp (not_le.mp hlong)
    exact absurd ((le_readDecimal hzero hdigits).trans_lt hvalue)
      (not_lt.mpr (Nat.pow_le_pow_right (by decide) hle))

/-- An integer within the limit is not written with too many digits. -/
theorem NumberText.WellFormed.not_tooLong {std : Stdlib} {number : NumberText}
    (hnumber : number.WellFormed) {value : Json} (hvalue : number.value std = some value)
    {levels : ℕ} (hreadable : Readable levels value) : ¬number.TooLong := by
  intro hlong
  have habs : number.intValue.natAbs = Url.readDecimal number.whole := by
    unfold NumberText.intValue
    split <;> simp
  rw [NumberText.value, if_pos ⟨hlong.1, hlong.2.1⟩] at hvalue
  rw [← Option.some.inj hvalue] at hreadable
  simp only [Readable, habs] at hreadable
  exact absurd (hnumber.whole.length_le (by decide) hreadable) (not_le.mpr hlong.2.2)

/-- A constant has no digit after its sign. -/
theorem head_of_constant : ∀ entry ∈ jsonConstants, ∀ rest,
    ∃ c, (splitSign (entry.1 ++ rest)).2.head? = some c ∧ isDigit c = false := by
  simp only [jsonConstants, List.forall_mem_cons]
  exact ⟨fun _ => ⟨_, rfl, by decide⟩, fun _ => ⟨_, rfl, by decide⟩,
    fun _ => ⟨_, rfl, by decide⟩, fun _ => ⟨_, rfl, by decide⟩,
    fun _ => ⟨_, rfl, by decide⟩, fun _ => ⟨_, rfl, by decide⟩,
    fun _ hentry => absurd hentry List.not_mem_nil⟩

theorem NumberText.WellFormed.readScalar {std : Stdlib} {number : NumberText}
    (hnumber : number.WellFormed) {value : Json} (hvalue : number.value std = some value)
    {levels : ℕ} (hreadable : Readable levels value) {rest : PyStr} (hends : Ends rest) :
    readScalar std (number.text ++ rest) = .ok (value, rest) := by
  have hconstant : jsonConstants.find? (fun entry => entry.1.isPrefixOf (number.text ++ rest)) =
      none := by
    rw [List.find?_eq_none]
    intro entry hentry hstart
    obtain ⟨after, hafter⟩ := List.isPrefixOf_iff_prefix.mp hstart
    obtain ⟨c, hc, hdigit⟩ := head_of_constant entry hentry after
    obtain ⟨d, later, hd, hfirst⟩ := hnumber.whole.exists_digit
    rw [hafter, hnumber.splitSign_append, hd] at hc
    rw [show d = c from Option.some.inj hc, hdigit] at hfirst
    exact absurd hfirst (by simp)
  rw [Python.readScalar, hconstant]
  simp only [readNumber, hnumber.splitNumber_append hends,
    if_neg (hnumber.not_tooLong hvalue hreadable), hvalue]

theorem readScalar_constant (std : Stdlib) {entry : PyStr × Json} (hentry : entry ∈ jsonConstants)
    (rest : PyStr) : readScalar std (entry.1 ++ rest) = .ok (entry.2, rest) := by
  have hfind : ∀ entry ∈ jsonConstants, ∀ rest : PyStr,
      jsonConstants.find? (fun other => other.1.isPrefixOf (entry.1 ++ rest)) = some entry := by
    simp only [jsonConstants, List.forall_mem_cons]
    exact ⟨fun _ => rfl, fun _ => rfl, fun _ => rfl, fun _ => rfl, fun _ => rfl, fun _ => rfl,
      fun _ hnil => absurd hnil List.not_mem_nil⟩
  rw [readScalar, hfind entry hentry rest]
  simp only [List.drop_left]

/-! ## Elements -/

/-- The text begins with a character that neither ends nor separates values. -/
def Opens (text : PyStr) : Prop :=
  ∃ c rest, text = c :: rest ∧ isJsonEnd c = false ∧ c ≠ byteOrderMark

theorem skipBlank_append {before text : PyStr} (hbefore : Blank before) :
    skipBlank (before ++ text) = skipBlank text :=
  List.dropWhile_append_of_pos hbefore

theorem skipBlank_cons {c : CodePoint} {text : PyStr} (hc : isJsonBlank c = false) :
    skipBlank (c :: text) = c :: text :=
  List.dropWhile_cons_of_neg (by simp [hc])

theorem not_isJsonBlank_of_not_isJsonEnd {c : CodePoint} (hc : isJsonEnd c = false) :
    isJsonBlank c = false := by
  simp only [isJsonEnd, Bool.or_eq_false_iff] at hc
  exact hc.1.1.1

theorem Opens.skipBlank_append {text : PyStr} (hopens : Opens text) (rest : PyStr) :
    skipBlank (text ++ rest) = text ++ rest := by
  obtain ⟨c, later, rfl, hc, _⟩ := hopens
  exact skipBlank_cons (not_isJsonBlank_of_not_isJsonEnd hc)

section Elements

variable {β : Type} (element : PyStr → Reading β)

/-- The text reads as the value wherever a value may end. -/
def Reads (text : PyStr) (value : β) : Prop :=
  ∀ rest, Ends rest → element (text ++ rest) = .ok (value, rest)

/-- An element with white space around it. -/
def ReadsPadded (piece : PyStr) (value : β) : Prop :=
  ∃ before text after, Blank before ∧ Blank after ∧ piece = before ++ (text ++ after) ∧
    Opens text ∧ Reads element text value

variable {element} {close : CodePoint}

theorem readSeparated_join (hclose : isJsonEnd close = true) (hblank : isJsonBlank close = false)
    (hcomma : commaChar ≠ close) {pieces : List PyStr} {values : List β} {piece : PyStr} {value : β}
    (hpieces : List.Forall₂ (ReadsPadded element) (piece :: pieces) (value :: values))
    {steps : ℕ} (hsteps : pieces.length < steps) (rest : PyStr) :
    readSeparated element close steps
        (skipBlank (join [commaChar] (piece :: pieces) ++ close :: rest)) =
      .ok (value :: values, rest) := by
  induction pieces generalizing piece value values steps with
  | nil =>
    cases steps with
    | zero => exact absurd hsteps (by simp)
    | succ steps =>
      obtain ⟨⟨before, text, after, hbefore, hafter, rfl, hopens, hreads⟩, hnone⟩ :=
        List.forall₂_cons.mp hpieces
      have hjoin : join [commaChar] [before ++ (text ++ after)] = before ++ (text ++ after) := by
        simp [join, List.intercalate]
      rw [hjoin, List.append_assoc, List.append_assoc, skipBlank_append hbefore,
        hopens.skipBlank_append, readSeparated, hreads _ (ends_of_blank hafter hclose)]
      simp only [skipBlank_append hafter, skipBlank_cons hblank, if_true]
      rw [List.forall₂_nil_left_iff.mp hnone]
  | cons second pieces ih =>
    cases values with
    | nil => exact absurd hpieces (by simp)
    | cons secondValue values =>
      cases steps with
      | zero => exact absurd hsteps (by simp)
      | succ steps =>
        obtain ⟨⟨before, text, after, hbefore, hafter, rfl, hopens, hreads⟩, hothers⟩ :=
          List.forall₂_cons.mp hpieces
        have hends : Ends (after ++
            commaChar :: (join [commaChar] (second :: pieces) ++ close :: rest)) :=
          ends_of_blank hafter (by decide)
        rw [join_cons_cons, List.append_assoc, List.append_assoc, List.append_assoc,
          List.append_assoc, skipBlank_append hbefore, hopens.skipBlank_append,
          readSeparated, List.singleton_append, hreads _ hends]
        simp only [skipBlank_append hafter, skipBlank_cons (c := commaChar) (by decide),
          if_neg hcomma, if_true]
        rw [ih hothers (Nat.lt_of_succ_lt_succ hsteps)]

theorem length_le_length_flatMap (pieces : List PyStr) :
    pieces.length ≤ (pieces.flatMap ([commaChar] ++ ·)).length := by
  rw [List.length_flatMap]
  simp

theorem readEnclosed_join (hclose : isJsonEnd close = true) (hblank : isJsonBlank close = false)
    (hcomma : commaChar ≠ close) {pieces : List PyStr} {values : List β} (hne : pieces ≠ [])
    (hpieces : List.Forall₂ (ReadsPadded element) pieces values) (rest : PyStr) :
    readEnclosed element close (join [commaChar] pieces ++ close :: rest) = .ok (values, rest) := by
  cases hpieces with
  | nil => exact absurd rfl hne
  | @cons piece value pieces values hfirst hothers =>
    have hread := fun hsteps => @readSeparated_join _ element close hclose hblank hcomma
      pieces values piece value (List.Forall₂.cons hfirst hothers)
      (skipBlank (join [commaChar] (piece :: pieces) ++ close :: rest)).length hsteps rest
    obtain ⟨before, text, after, hbefore, _, rfl, ⟨c, later, rfl, hc, _⟩, _⟩ := hfirst
    have hstart : skipBlank (join [commaChar] ((before ++ (c :: later ++ after)) :: pieces) ++
        close :: rest) =
          c :: (later ++ (after ++ (pieces.flatMap ([commaChar] ++ ·) ++ close :: rest))) := by
      rw [join, Framing.intercalate_cons, List.append_assoc, List.append_assoc,
        skipBlank_append hbefore, List.append_assoc, List.cons_append,
        skipBlank_cons (not_isJsonBlank_of_not_isJsonEnd hc)]
    have hlength := length_le_length_flatMap pieces
    have hclosing : c ≠ close := by
      rintro rfl
      exact absurd hclose (by simp [hc])
    rw [hstart] at hread
    rw [readEnclosed, hstart]
    simp only [if_neg hclosing]
    apply hread
    simp only [List.length_cons, List.length_append]
    omega

theorem readEnclosed_blank (hblank : isJsonBlank close = false) {blank : PyStr}
    (hbefore : Blank blank) (rest : PyStr) :
    readEnclosed element close (blank ++ close :: rest) = .ok ([], rest) := by
  rw [readEnclosed, skipBlank_append hbefore, skipBlank_cons hblank]
  simp only [if_true]

end Elements

/-! ## Values -/

theorem NumberText.WellFormed.exists_head {number : NumberText} (hnumber : number.WellFormed) :
    ∃ c rest, number.text = c :: rest ∧ (isDigit c = true ∨ c = minusChar) := by
  obtain ⟨d, later, hd, hdigit⟩ := hnumber.whole.exists_digit
  cases hnumber.sign with
  | inl hnone => exact ⟨d, _, by rw [NumberText.text, hnone, hd]; rfl, Or.inl hdigit⟩
  | inr hminus => exact ⟨minusChar, _, by rw [NumberText.text, hminus]; rfl, Or.inr rfl⟩

/-- The first character of a number or a constant. -/
def isScalarStart (c : CodePoint) : Bool :=
  isDigit c || c = minusChar || c ∈ py "ntfNI"

theorem isScalarStart_of_constant : ∀ entry ∈ jsonConstants,
    ∃ c rest, entry.1 = c :: rest ∧ isScalarStart c = true := by
  simp only [jsonConstants, List.forall_mem_cons]
  exact ⟨⟨_, _, rfl, by decide⟩, ⟨_, _, rfl, by decide⟩, ⟨_, _, rfl, by decide⟩,
    ⟨_, _, rfl, by decide⟩, ⟨_, _, rfl, by decide⟩, ⟨_, _, rfl, by decide⟩,
    fun _ hentry => absurd hentry List.not_mem_nil⟩

theorem not_isScalarStart_of_isJsonEnd {c : CodePoint} (hc : isJsonEnd c = true) :
    isScalarStart c = false := by
  have hval : ∀ d : CodePoint, isScalarStart d = false → c.val = d.val →
      isScalarStart c = false := fun d hd hsame => (Fin.ext hsame : c = d) ▸ hd
  simp only [isJsonEnd, isJsonBlank, Bool.or_eq_true, decide_eq_true_eq] at hc
  obtain (((((h | h) | h) | h) | rfl) | rfl) | rfl := hc
  · exact hval ⟨0x20, by decide⟩ (by decide) h
  · exact hval ⟨0x09, by decide⟩ (by decide) h
  · exact hval ⟨0x0A, by decide⟩ (by decide) h
  · exact hval ⟨0x0D, by decide⟩ (by decide) h
  · decide
  · decide
  · decide

theorem ne_of_isScalarStart {c d : CodePoint} (hc : isScalarStart c = true)
    (hd : isScalarStart d = false) : c ≠ d := by
  rintro rfl
  exact absurd hc (by simp [hd])

theorem opens_of_isScalarStart {c : CodePoint} {rest : PyStr} (hc : isScalarStart c = true) :
    Opens (c :: rest) := by
  refine ⟨c, rest, rfl, ?_, ne_of_isScalarStart hc (by decide)⟩
  rw [Bool.eq_false_iff]
  intro hend
  exact absurd hc (by simp [not_isScalarStart_of_isJsonEnd hend])

/-- What the text of a scalar begins with. -/
theorem scanValue_of_isScalarStart {std : Stdlib} {nested : Option (PyStr → Reading Json)}
    {c : CodePoint} (hc : isScalarStart c = true) (rest : PyStr) :
    scanValue std nested (c :: rest) = readScalar std (c :: rest) := by
  rw [scanValue, if_neg (ne_of_isScalarStart hc (by decide)),
    if_neg (ne_of_isScalarStart hc (by decide)), if_neg (ne_of_isScalarStart hc (by decide))]

theorem NumberText.WellFormed.exists_scalarStart {number : NumberText} (hnumber : number.WellFormed) :
    ∃ c rest, number.text = c :: rest ∧ isScalarStart c = true := by
  obtain ⟨c, rest, htext, hc⟩ := hnumber.exists_head
  refine ⟨c, rest, htext, ?_⟩
  cases hc with
  | inl hdigit => rw [isScalarStart, hdigit]; rfl
  | inr hminus => rw [hminus]; decide

theorem Writes.opens {std : Stdlib} {text : PyStr} {value : Json} (hwrites : Writes std text value) :
    Opens text := by
  cases hwrites with
  | constant hword =>
    obtain ⟨c, rest, htext, hc⟩ := isScalarStart_of_constant _ hword
    rw [show text = c :: rest from htext]
    exact opens_of_isScalarStart hc
  | number hnumber _ =>
    obtain ⟨c, rest, htext, hc⟩ := hnumber.exists_scalarStart
    rw [htext]
    exact opens_of_isScalarStart hc
  | str _ => exact ⟨_, _, rfl, by decide, by decide⟩
  | emptyArr _ => exact ⟨_, _, rfl, by decide, by decide⟩
  | arr _ _ => exact ⟨_, _, rfl, by decide, by decide⟩
  | emptyObj _ => exact ⟨_, _, rfl, by decide, by decide⟩
  | obj _ _ _ => exact ⟨_, _, rfl, by decide, by decide⟩

section Nested

variable {std : Stdlib} {levels : ℕ}
  (hscan : ∀ {text value}, Writes std text value → Readable levels value →
    Reads (scanOnce std levels) text value)

include hscan

theorem WritesItem.readsPadded {piece : PyStr} {value : Json} (hpiece : WritesItem std piece value)
    (hreadable : Readable levels value) : ReadsPadded (scanOnce std levels) piece value := by
  cases hpiece with
  | padded hbefore hafter hvalue =>
    exact ⟨_, _, _, hbefore, hafter, rfl, hvalue.opens, hscan hvalue hreadable⟩

theorem WritesField.readsPadded {piece : PyStr} {field : PyStr × Json}
    (hpiece : WritesField std piece field) (hreadable : Readable levels field.2) :
    ReadsPadded (readMember (scanOnce std levels)) piece field := by
  cases hpiece with
  | @padded before body key middle text value hbefore hkey hmiddle hvalue =>
    cases hvalue with
    | @padded gap core after _ hgap hafter hcore =>
      refine ⟨before, doubleQuote :: (body ++ doubleQuote ::
        (middle ++ colonChar :: (gap ++ core))), after, hbefore, hafter, by simp,
        ⟨_, _, rfl, by decide, by decide⟩, fun rest hends => ?_⟩
      have hvalue := hscan hcore hreadable rest hends
      have hshape : (doubleQuote :: (body ++ doubleQuote ::
          (middle ++ colonChar :: (gap ++ core)))) ++ rest =
            doubleQuote :: (body ++ doubleQuote ::
              (middle ++ colonChar :: (gap ++ (core ++ rest)))) := by
        simp
      rw [hshape, readMember, if_pos rfl, hkey.readString]
      simp only [skipBlank_append hmiddle, skipBlank_cons (c := colonChar) (by decide), if_true,
        skipBlank_append hgap, hcore.opens.skipBlank_append, hvalue]

end Nested

theorem forall₂_readsPadded {β : Type} {writes : PyStr → β → Prop} {good : β → Prop}
    {element : PyStr → Reading β}
    (hone : ∀ {piece value}, writes piece value → good value → ReadsPadded element piece value)
    {pieces : List PyStr} {values : List β} (hpieces : List.Forall₂ writes pieces values)
    (hgood : ∀ value ∈ values, good value) : List.Forall₂ (ReadsPadded element) pieces values := by
  induction hpieces with
  | nil => exact List.Forall₂.nil
  | cons hfirst _ ih =>
    obtain ⟨hvalue, hrest⟩ := List.forall_mem_cons.mp hgood
    exact List.Forall₂.cons (hone hfirst hvalue) (ih hrest)

section Scalars

variable {std : Stdlib} (nested : Option (PyStr → Reading Json))

theorem reads_constant {entry : PyStr × Json} (hentry : entry ∈ jsonConstants) :
    Reads (scanValue std nested) entry.1 entry.2 := by
  intro rest _
  obtain ⟨c, later, htext, hc⟩ := isScalarStart_of_constant _ hentry
  rw [htext, List.cons_append, scanValue_of_isScalarStart hc, ← List.cons_append, ← htext]
  exact readScalar_constant std hentry rest

theorem reads_number {number : NumberText} (hnumber : number.WellFormed) {value : Json}
    (hvalue : number.value std = some value) {levels : ℕ} (hreadable : Readable levels value) :
    Reads (scanValue std nested) number.text value := by
  intro rest hends
  obtain ⟨c, later, htext, hc⟩ := hnumber.exists_scalarStart
  rw [htext, List.cons_append, scanValue_of_isScalarStart hc, ← List.cons_append, ← htext]
  exact hnumber.readScalar hvalue hreadable hends

theorem reads_string {body value : PyStr} (hbody : StringBody body value) :
    Reads (scanValue std nested) (doubleQuote :: (body ++ [doubleQuote])) (.str value) := by
  intro rest _
  rw [List.cons_append, List.append_assoc, scanValue, if_pos rfl, List.singleton_append,
    hbody.readString]
  rfl

end Scalars

section Brackets

variable {std : Stdlib} {scan : PyStr → Reading Json}

theorem reads_brackets {body : PyStr} {items : List Json}
    (hbody : ∀ rest, readEnclosed scan closeBracket (body ++ closeBracket :: rest) =
      .ok (items, rest)) :
    Reads (scanValue std (some scan)) (openBracket :: (body ++ [closeBracket])) (.arr items) := by
  intro rest _
  rw [List.cons_append, List.append_assoc, scanValue, if_neg (by decide), if_neg (by decide),
    if_pos rfl, List.singleton_append, readArray]
  simp only [hbody]
  rfl

theorem reads_braces {body : PyStr} {fields : List (PyStr × Json)}
    (hdistinct : (Dict.keys fields).Nodup)
    (hbody : ∀ rest, readEnclosed (readMember scan) closeBrace (body ++ closeBrace :: rest) =
      .ok (fields, rest)) :
    Reads (scanValue std (some scan)) (openBrace :: (body ++ [closeBrace])) (.obj fields) := by
  intro rest _
  rw [List.cons_append, List.append_assoc, scanValue, if_neg (by decide), if_pos rfl,
    List.singleton_append, readObject]
  simp only [hbody]
  change Except.ok (Json.obj (Dict.update [] fields), rest) = _
  rw [Dict.update_nil_of_nodup hdistinct]

end Brackets

/-- The decoder reads a serialisation back, wherever it stands. -/
theorem Writes.reads {std : Stdlib} {levels : ℕ} {text : PyStr} {value : Json}
    (hwrites : Writes std text value) (hreadable : Readable levels value) :
    Reads (scanOnce std levels) text value := by
  induction levels generalizing text value with
  | zero =>
    cases hwrites with
    | constant hword => exact reads_constant none hword
    | number hnumber hvalue => exact reads_number none hnumber hvalue hreadable
    | str hbody => exact reads_string none hbody
    | emptyArr _ => exact hreadable.elim
    | arr _ _ => exact hreadable.elim
    | emptyObj _ => exact hreadable.elim
    | obj _ _ _ => exact hreadable.elim
  | succ levels ih =>
    cases hwrites with
    | constant hword => exact reads_constant _ hword
    | number hnumber hvalue => exact reads_number _ hnumber hvalue hreadable
    | str hbody => exact reads_string _ hbody
    | emptyArr hblank => exact reads_brackets (readEnclosed_blank (by decide) hblank)
    | arr hne hitems =>
      exact reads_brackets (readEnclosed_join (by decide) (by decide) (by decide) hne
        (forall₂_readsPadded (WritesItem.readsPadded ih) hitems hreadable))
    | emptyObj hblank => exact reads_braces List.nodup_nil (readEnclosed_blank (by decide) hblank)
    | obj hne hdistinct hfields =>
      exact reads_braces hdistinct (readEnclosed_join (by decide) (by decide) (by decide) hne
        (forall₂_readsPadded (WritesField.readsPadded ih) hfields hreadable))

/-- `json.loads` returns the value of every serialisation within the limits. -/
theorem Writes.loads {std : Stdlib} {levels : ℕ} {text : PyStr} {value : Json}
    (hwrites : Writes std text value) (hreadable : Readable levels value) :
    loads std levels text = .ok value := by
  have hread := hwrites.reads hreadable [] (by simp [Ends])
  have hskip := hwrites.opens.skipBlank_append []
  rw [List.append_nil] at hread hskip
  obtain ⟨c, rest, htext, _, hmark⟩ := hwrites.opens
  rw [Python.loads, if_neg, hskip, hread]
  · rfl
  · rw [htext]
    exact fun hhead => hmark (Option.some.inj hhead)

/-- An object with one field and no white space. -/
theorem writes_single {std : Stdlib} {key text : PyStr} {value : Json}
    (hkey : key.all isPlainChar = true) (hvalue : Writes std text value) :
    Writes std
      (openBrace :: ((doubleQuote :: (key ++ doubleQuote :: colonChar :: text)) ++ [closeBrace]))
      (.obj [(key, value)]) := by
  have hnone : Blank [] := fun _ hc => absurd hc List.not_mem_nil
  have hitem := WritesItem.padded hnone hnone hvalue
  rw [List.nil_append, List.append_nil] at hitem
  have hfield := WritesField.padded hnone (StringBody.of_plain hkey) hnone hitem
  have hwrites := Writes.obj (by simp) (by simp [Dict.keys])
    (List.Forall₂.cons hfield List.Forall₂.nil)
  simpa [join, List.intercalate] using hwrites

/-! ## Arrays and objects as texts -/

open Brackets

/-- What a reading has to show so that nothing but its brackets is around the body. -/
theorem balanced_of_concat {β : Type} {element : PyStr → Reading β} {close : CodePoint}
    (helement : ReadsBalanced element) {body : PyStr} {values : List β}
    (hread : readEnclosed element close (body ++ [close]) = .ok (values, [])) :
    Balanced jsonMark body := by
  obtain ⟨used, hused, hbalanced⟩ := balanced_readEnclosed helement hread
  rw [List.append_cancel_right hused]
  exact hbalanced

theorem NumberText.value_eq_some {std : Stdlib} {number : NumberText} {value : Json}
    (hvalue : number.value std = some value) : (∃ n, value = .int n) ∨ ∃ x, value = .float x := by
  unfold NumberText.value at hvalue
  split at hvalue
  · exact Or.inl ⟨_, (Option.some.inj hvalue).symm⟩
  · obtain ⟨x, _, rfl⟩ := Option.map_eq_some_iff.mp hvalue
    exact Or.inr ⟨x, rfl⟩

/-- Escapes only make a string longer. -/
theorem StringBody.length_le {text value : PyStr} (hbody : StringBody text value) :
    value.length ≤ text.length := by
  induction hbody with
  | nil => exact le_rfl
  | plain _ _ _ _ ih => exact Nat.succ_le_succ ih
  | short _ _ _ ih =>
    simp only [List.length_cons]
    omega
  | unit hlength _ _ _ ih =>
    simp only [List.length_cons, List.length_append]
    omega
  | pair hlength _ _ hothers _ _ _ ih =>
    simp only [List.length_cons, List.length_append]
    omega

namespace Writes

variable {std : Stdlib} {levels : ℕ} {text : PyStr}

theorem length_lt_of_str {value : PyStr} (hwrites : Writes std text (.str value)) :
    value.length < text.length := by
  cases hwrites with
  | constant hword => simp [jsonConstants] at hword
  | number _ hvalue =>
    obtain ⟨_, heq⟩ | ⟨_, heq⟩ := NumberText.value_eq_some hvalue
    · exact absurd heq (by simp)
    · exact absurd heq (by simp)
  | str hbody =>
    have hle := hbody.length_le
    simp only [List.length_cons, List.length_append]
    omega

/-- An object is longer than the one string in it. -/
theorem length_lt_of_field {key value : PyStr}
    (hwrites : Writes std text (.obj [(key, .str value)])) : value.length < text.length := by
  cases hwrites with
  | constant hword => simp [jsonConstants] at hword
  | number _ hvalue =>
    obtain ⟨_, heq⟩ | ⟨_, heq⟩ := NumberText.value_eq_some hvalue
    · exact absurd heq (by simp)
    · exact absurd heq (by simp)
  | @obj pieces _ _ _ hfields =>
    obtain ⟨piece, rest, hpiece, hrest, rfl⟩ := List.forall₂_cons_right_iff.mp hfields
    rw [List.forall₂_nil_right_iff.mp hrest]
    cases hpiece with
    | padded _ _ _ hitem =>
      cases hitem with
      | padded _ _ hvalue =>
        have hlt := hvalue.length_lt_of_str
        simp only [join, List.intercalate, List.length_cons, List.length_append,
          List.intersperse_singleton, List.flatten_cons, List.flatten_nil]
        omega

theorem exists_body_obj {fields : List (PyStr × Json)}
    (hwrites : Writes std text (.obj fields)) : ∃ body, text = openBrace :: (body ++ [closeBrace]) := by
  cases hwrites with
  | constant hword => simp [jsonConstants] at hword
  | number _ hvalue =>
    obtain ⟨_, heq⟩ | ⟨_, heq⟩ := NumberText.value_eq_some hvalue
    · exact absurd heq (by simp)
    · exact absurd heq (by simp)
  | emptyObj _ => exact ⟨_, rfl⟩
  | obj _ _ _ => exact ⟨_, rfl⟩

theorem exists_body_arr {items : List Json} (hwrites : Writes std text (.arr items)) :
    ∃ body, text = openBracket :: (body ++ [closeBracket]) := by
  cases hwrites with
  | constant hword => simp [jsonConstants] at hword
  | number _ hvalue =>
    obtain ⟨_, heq⟩ | ⟨_, heq⟩ := NumberText.value_eq_some hvalue
    · exact absurd heq (by simp)
    · exact absurd heq (by simp)
  | emptyArr _ => exact ⟨_, rfl⟩
  | arr _ _ => exact ⟨_, rfl⟩

theorem balanced_obj {body : PyStr} {fields : List (PyStr × Json)}
    (hwrites : Writes std (openBrace :: (body ++ [closeBrace])) (.obj fields))
    (hreadable : Readable levels (.obj fields)) : Balanced jsonMark body := by
  cases levels with
  | zero => exact hreadable.elim
  | succ levels =>
    have hread := hwrites.reads hreadable [] (by simp [Ends])
    rw [List.append_nil, scanOnce, scanValue, if_neg (by decide), if_pos rfl] at hread
    obtain ⟨_, hfields, _⟩ := map_eq_ok hread
    exact balanced_of_concat (readsBalanced_readMember (readsBalanced_scanOnce std levels)) hfields

theorem balanced_arr {body : PyStr} {items : List Json}
    (hwrites : Writes std (openBracket :: (body ++ [closeBracket])) (.arr items))
    (hreadable : Readable levels (.arr items)) : Balanced jsonMark body := by
  cases levels with
  | zero => exact hreadable.elim
  | succ levels =>
    have hread := hwrites.reads hreadable [] (by simp [Ends])
    rw [List.append_nil, scanOnce, scanValue, if_neg (by decide), if_neg (by decide),
      if_pos rfl] at hread
    obtain ⟨_, hitems, _⟩ := map_eq_ok hread
    exact balanced_of_concat (readsBalanced_scanOnce std levels) hitems

end Writes

/-- Nothing is read from the rest of an array or object that begins at a bracket
inside it. -/
theorem loads_ne_ok_of_suffix {std : Stdlib} {nesting : ℕ} {before after : PyStr}
    {opening closing : CodePoint} (hbody : Balanced jsonMark (before ++ opening :: after))
    (hopening : jsonMark opening = .opening) (hclosing : jsonMark closing = .closing)
    (value : Json) : loads std nesting (opening :: after ++ [closing]) ≠ .ok value :=
  fun hloads => not_balanced_of_suffix hbody hopening hclosing (balanced_of_loads hloads)

/-- Nothing is read from the beginning of an object that breaks off inside it. -/
theorem loads_ne_ok_of_prefix {std : Stdlib} {nesting : ℕ} {before after : PyStr}
    (hbody : Balanced jsonMark (before ++ after)) (value : Json) :
    loads std nesting (openBrace :: before) ≠ .ok value :=
  fun hloads => not_balanced_of_prefix hbody jsonMark_openBrace (balanced_of_loads hloads)

/-- A text that begins with anything but a brace is not that of an object. -/
theorem loads_ne_obj {std : Stdlib} {nesting : ℕ} {c : CodePoint}
    (hblank : isJsonBlank c = false) (hbrace : c ≠ openBrace) (text : PyStr)
    (fields : List (PyStr × Json)) : loads std nesting (c :: text) ≠ .ok (.obj fields) := by
  intro hloads
  obtain ⟨nested, after, _, hscan, _⟩ := exists_scan_of_loads hloads
  rw [skipBlank_cons hblank, scanValue] at hscan
  simp only [if_neg hbrace] at hscan
  split at hscan
  · obtain ⟨_, _, hvalue⟩ := map_eq_ok hscan
    exact absurd hvalue (by simp)
  · split at hscan
    · cases nested with
      | none => exact absurd hscan (by simp [readArray])
      | some scan =>
        obtain ⟨_, _, hvalue⟩ := map_eq_ok hscan
        exact absurd hvalue (by simp)
    · exact (readable_of_readScalar hscan 0).elim

/-- The text of an object ends with its closing brace. -/
theorem ends_of_loads_obj {std : Stdlib} {nesting : ℕ} {text : PyStr} {value : Json}
    (hloads : loads std nesting (openBrace :: text) = .ok value) :
    ∃ used blank, text = used ++ closeBrace :: blank ∧ Blank blank := by
  obtain ⟨nested, after, hnested, hscan, hafter⟩ := exists_scan_of_loads hloads
  rw [skipBlank_cons (by decide), scanValue, if_neg (by decide), if_pos rfl] at hscan
  cases nested with
  | none => exact absurd hscan (by simp [readObject])
  | some scan =>
    obtain ⟨_, hfields, _⟩ := map_eq_ok hscan
    obtain ⟨used, rfl, _⟩ :=
      balanced_readEnclosed (readsBalanced_readMember (hnested scan rfl)) hfields
    obtain ⟨blank, hblank, hall⟩ := skipBlank_eq after
    rw [hafter, List.append_nil] at hblank
    exact ⟨used, after, rfl, hblank ▸ hall⟩

end RootSeeker.Python
