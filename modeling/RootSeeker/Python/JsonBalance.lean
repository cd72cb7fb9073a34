import RootSeeker.Python.JsonDecoder

/-!
# What the JSON decoder reads is balanced

A value is read from a text that is balanced in its brackets outside quotes, and
no deeper than the room there was.  So nothing is read from the rest of an array
or object that begins at one of the brackets inside it.
-/

namespace RootSeeker.Python

open Brackets

def jsonMark (c : CodePoint) : Mark :=
  if c = doubleQuote then .quote
  else if c = backslash then .escape
  else if c = openBrace ∨ c = openBracket then .opening
  else if c = closeBrace ∨ c = closeBracket then .closing
  else .plain

theorem jsonMark_quote : jsonMark doubleQuote = .quote := by decide
theorem jsonMark_backslash : jsonMark backslash = .escape := by decide
theorem jsonMark_openBrace : jsonMark openBrace = .opening := by decide
theorem jsonMark_openBracket : jsonMark openBracket = .opening := by decide
theorem jsonMark_closeBrace : jsonMark closeBrace = .closing := by decide
theorem jsonMark_closeBracket : jsonMark closeBracket = .closing := by decide

theorem jsonMark_eq_plain {c : CodePoint} (hquote : c.val ≠ 0x22) (hescape : c.val ≠ 0x5C)
    (hbrace : c.val ≠ 0x7B ∧ c.val ≠ 0x7D) (hbracket : c.val ≠ 0x5B ∧ c.val ≠ 0x5D) :
    jsonMark c = .plain := by
  have hne : ∀ d : CodePoint, c.val ≠ d.val → c ≠ d := fun d hval heq => hval (heq ▸ rfl)
  rw [jsonMark, if_neg (hne _ hquote), if_neg (hne _ hescape),
    if_neg (not_or.mpr ⟨hne _ hbrace.1, hne _ hbracket.1⟩),
    if_neg (not_or.mpr ⟨hne _ hbrace.2, hne _ hbracket.2⟩)]

theorem jsonMark_of_isDigit {c : CodePoint} (hdigit : isDigit c = true) : jsonMark c = .plain := by
  simp only [isDigit, Bool.and_eq_true, decide_eq_true_eq] at hdigit
  exact jsonMark_eq_plain (by omega) (by omega) (by omega) (by omega)

theorem jsonMark_of_isJsonBlank {c : CodePoint} (hblank : isJsonBlank c = true) :
    jsonMark c = .plain := by
  simp only [isJsonBlank, Bool.or_eq_true, decide_eq_true_eq] at hblank
  exact jsonMark_eq_plain (by omega) (by omega) (by omega) (by omega)

theorem jsonMark_of_hexDigitValue {c : CodePoint} {value : ℕ} (hhex : hexDigitValue c = some value) :
    jsonMark c = .plain := by
  unfold hexDigitValue at hhex
  split at hhex
  · next hdigit => exact jsonMark_of_isDigit hdigit
  · split at hhex
    · next hlower => exact jsonMark_eq_plain (by omega) (by omega) (by omega) (by omega)
    · split at hhex
      · next hupper => exact jsonMark_eq_plain (by omega) (by omega) (by omega) (by omega)
      · exact absurd hhex (by simp)

/-- A reader takes a balanced part off the front of the text. -/
def ReadsBalanced {β : Type} (element : PyStr → Reading β) : Prop :=
  ∀ text value rest, element text = .ok (value, rest) →
    ∃ used, text = used ++ rest ∧ Balanced jsonMark used

/-! ## Strings -/

theorem plain_of_hexNumber {digits : PyStr} {value : ℕ} (hnumber : hexNumber digits = some value) :
    ∀ c ∈ digits, jsonMark c = .plain := by
  have hall : ∀ start, digits.foldlM (fun value c => (hexDigitValue c).map (value * 16 + ·)) start =
      some value → ∀ c ∈ digits, jsonMark c = .plain := by
    clear hnumber
    induction digits with
    | nil => exact fun _ _ c hc => absurd hc List.not_mem_nil
    | cons d digits ih =>
      intro start hfold
      rw [List.foldlM_cons] at hfold
      obtain ⟨next, hnext, hrest⟩ := Option.bind_eq_some_iff.mp hfold
      obtain ⟨digit, hdigit, _⟩ := Option.map_eq_some_iff.mp hnext
      exact List.forall_mem_cons.mpr ⟨jsonMark_of_hexDigitValue hdigit, ih next hrest⟩
  exact hall 0 hnumber

theorem readHex4_eq_some {text rest : PyStr} {unit : ℕ} (hread : readHex4 text = some (unit, rest)) :
    ∃ digits, digits.length = 4 ∧ hexNumber digits = some unit ∧ text = digits ++ rest := by
  unfold readHex4 at hread
  split at hread
  · next hlength =>
    obtain ⟨value, hvalue, heq⟩ := Option.map_eq_some_iff.mp hread
    obtain ⟨rfl, rfl⟩ := Prod.mk.inj heq
    exact ⟨text.take 4, hlength, hvalue, (List.take_append_drop 4 text).symm⟩
  · exact absurd hread (by simp)

theorem readLowSurrogate_eq_some {text rest : PyStr} {unit : ℕ}
    (hread : readLowSurrogate text = some (unit, rest)) :
    ∃ digits, digits.length = 4 ∧ hexNumber digits = some unit ∧ isLowSurrogate unit = true ∧
      text = backslash :: letterU :: (digits ++ rest) := by
  unfold readLowSurrogate at hread
  split at hread
  · next c d after =>
    split at hread
    · next hmarks =>
      obtain ⟨hhex, hlow⟩ := Option.filter_eq_some_iff.mp hread
      obtain ⟨digits, hlength, hnumber, rfl⟩ := readHex4_eq_some hhex
      exact ⟨digits, hlength, hnumber, hlow, by rw [hmarks.1, hmarks.2]⟩
    · exact absurd hread (by simp)
  · exact absurd hread (by simp)

theorem quoted_joinUnit {unit : ℕ} {text rest : PyStr} {c : CodePoint}
    (hjoin : joinUnit unit text = (c, rest)) :
    ∃ used, text = used ++ rest ∧ Quoted jsonMark used := by
  unfold joinUnit at hjoin
  split at hjoin
  · next low later hlow =>
    obtain ⟨_, rfl⟩ := Prod.mk.inj hjoin
    split at hlow
    · obtain ⟨digits, _, hnumber, _, rfl⟩ := readLowSurrogate_eq_some hlow
      exact ⟨backslash :: letterU :: digits, rfl,
        Quoted.escape jsonMark_backslash (Quoted.of_plain (plain_of_hexNumber hnumber))⟩
    · exact absurd hlow (by simp)
  · obtain ⟨_, rfl⟩ := Prod.mk.inj hjoin
    exact ⟨[], rfl, Quoted.nil⟩

theorem quoted_readEscape {text rest : PyStr} {c : CodePoint}
    (hread : readEscape text = some (c, rest)) :
    ∃ used, text = used ++ rest ∧ Quoted jsonMark (backslash :: used) := by
  cases text with
  | nil => exact absurd hread (by simp [readEscape])
  | cons d after =>
    rw [readEscape] at hread
    split at hread
    · obtain ⟨⟨unit, later⟩, hhex, hjoin⟩ := Option.map_eq_some_iff.mp hread
      obtain ⟨digits, _, hnumber, rfl⟩ := readHex4_eq_some hhex
      obtain ⟨used, rfl, hused⟩ := quoted_joinUnit hjoin
      exact ⟨d :: (digits ++ used), by simp, Quoted.escape jsonMark_backslash
        ((Quoted.of_plain (plain_of_hexNumber hnumber)).append hused)⟩
    · obtain ⟨value, _, heq⟩ := Option.map_eq_some_iff.mp hread
      obtain ⟨_, rfl⟩ := Prod.mk.inj heq
      exact ⟨[d], rfl, Quoted.escape jsonMark_backslash Quoted.nil⟩

theorem quoted_scanString {steps : ℕ} {text value rest : PyStr}
    (hscan : scanString steps text = some (value, rest)) :
    ∃ body, text = body ++ doubleQuote :: rest ∧ Quoted jsonMark body := by
  induction steps generalizing text value with
  | zero => exact absurd hscan (by simp [scanString])
  | succ steps ih =>
    cases text with
    | nil => exact absurd hscan (by simp [scanString])
    | cons c after =>
      rw [scanString] at hscan
      split at hscan
      · next hquote =>
        obtain ⟨_, rfl⟩ := Prod.mk.inj (Option.some.inj hscan)
        exact ⟨[], by rw [hquote]; rfl, Quoted.nil⟩
      · next hquote =>
        split at hscan
        · next hescape =>
          obtain ⟨⟨d, later⟩, hd, hrest⟩ := Option.bind_eq_some_iff.mp hscan
          obtain ⟨⟨tail, last⟩, htail, heq⟩ := Option.map_eq_some_iff.mp hrest
          obtain ⟨_, rfl⟩ := Prod.mk.inj heq
          obtain ⟨used, rfl, hused⟩ := quoted_readEscape hd
          obtain ⟨body, rfl, hbody⟩ := ih htail
          exact ⟨c :: (used ++ body), by simp, hescape ▸ hused.append hbody⟩
        · next hescape =>
          split at hscan
          · exact absurd hscan (by simp)
          · obtain ⟨⟨tail, last⟩, htail, heq⟩ := Option.map_eq_some_iff.mp hscan
            obtain ⟨_, rfl⟩ := Prod.mk.inj heq
            obtain ⟨body, rfl, hbody⟩ := ih htail
            refine ⟨c :: body, rfl, Quoted.cons ?_ ?_ hbody⟩
            · unfold jsonMark
              rw [if_neg hquote]
              grind
            · unfold jsonMark
              rw [if_neg hquote, if_neg hescape]
              grind

theorem quoted_readString {text value rest : PyStr} (hread : readString text = .ok (value, rest)) :
    ∃ body, text = body ++ doubleQuote :: rest ∧ Quoted jsonMark body := by
  unfold readString at hread
  split at hread
  · next reading hscan =>
    rw [Except.ok.inj hread] at hscan
    exact quoted_scanString hscan
  · exact absurd hread (by simp)

/-! ## Numbers and constants -/

def ReadsPlain (left right text : PyStr) : Prop :=
  text = left ++ right ∧ ∀ c ∈ left, jsonMark c = .plain

theorem ReadsPlain.append {left right middle rest text : PyStr}
    (hleft : ReadsPlain left middle text) (hright : ReadsPlain right rest middle) :
    ReadsPlain (left ++ right) rest text := by
  refine ⟨by rw [hleft.1, hright.1, List.append_assoc], fun c hc => ?_⟩
  exact (List.mem_append.mp hc).elim (hleft.2 c) (hright.2 c)

theorem readsPlain_nil (text : PyStr) : ReadsPlain [] text text :=
  ⟨rfl, fun _ hc => absurd hc List.not_mem_nil⟩

theorem readsPlain_cons {c : CodePoint} {left right text : PyStr} (hc : jsonMark c = .plain)
    (hrest : ReadsPlain left right text) : ReadsPlain (c :: left) right (c :: text) :=
  ⟨by rw [hrest.1]; rfl, List.forall_mem_cons.mpr ⟨hc, hrest.2⟩⟩

theorem readsPlain_digits (text : PyStr) :
    ReadsPlain (text.takeWhile isDigit) (text.dropWhile isDigit) text :=
  ⟨List.takeWhile_append_dropWhile.symm,
    fun _ hc => jsonMark_of_isDigit (List.mem_takeWhile_imp hc)⟩

theorem readsPlain_splitSign (text : PyStr) :
    ReadsPlain (splitSign text).1 (splitSign text).2 text := by
  unfold splitSign
  split
  · next hminus =>
    cases text with
    | nil => exact absurd hminus (by simp)
    | cons c rest =>
      rw [show c = minusChar from Option.some.inj hminus]
      exact readsPlain_cons (by decide) (readsPlain_nil rest)
  · exact readsPlain_nil text

theorem readsPlain_splitWhole {text whole rest : PyStr}
    (hsplit : splitWhole text = some (whole, rest)) : ReadsPlain whole rest text := by
  cases text with
  | nil => exact absurd hsplit (by simp [splitWhole])
  | cons c after =>
    rw [splitWhole] at hsplit
    split at hsplit
    · next hzero =>
      obtain ⟨rfl, rfl⟩ := Prod.mk.inj (Option.some.inj hsplit)
      exact readsPlain_cons (by rw [hzero]; decide) (readsPlain_nil after)
    · split at hsplit
      · next hdigit =>
        obtain ⟨rfl, rfl⟩ := Prod.mk.inj (Option.some.inj hsplit)
        exact readsPlain_cons (jsonMark_of_isDigit hdigit) (readsPlain_digits after)
      · exact absurd hsplit (by simp)

theorem readsPlain_splitFraction (text : PyStr) :
    ReadsPlain (splitFraction text).1 (splitFraction text).2 text := by
  cases text with
  | nil => exact readsPlain_nil []
  | cons c rest =>
    rw [splitFraction]
    split
    · next hdot => exact readsPlain_cons (by rw [hdot.1]; decide) (readsPlain_digits rest)
    · exact readsPlain_nil _

theorem readsPlain_splitExponentSign (text : PyStr) :
    ReadsPlain (splitExponentSign text).1 (splitExponentSign text).2 text := by
  cases text with
  | nil => exact readsPlain_nil []
  | cons c rest =>
    rw [splitExponentSign]
    split
    · next hsign =>
      simp only [isExponentSign, Bool.or_eq_true, decide_eq_true_eq] at hsign
      have hc : jsonMark c = .plain := by
        cases hsign with
        | inl hminus => rw [hminus]; decide
        | inr hplus => rw [hplus]; decide
      exact readsPlain_cons hc (readsPlain_nil rest)
    · exact readsPlain_nil _

theorem readsPlain_splitExponent (text : PyStr) :
    ReadsPlain (splitExponent text).1 (splitExponent text).2 text := by
  cases text with
  | nil => exact readsPlain_nil []
  | cons c rest =>
    rw [splitExponent]
    split
    · next hexponent =>
      have hc : jsonMark c = .plain := by
        cases hexponent.1 with
        | inl hlower => rw [hlower]; decide
        | inr hupper => rw [hupper]; decide
      exact readsPlain_cons hc ((readsPlain_splitExponentSign rest).append (readsPlain_digits _))
    · exact readsPlain_nil _

theorem readsPlain_splitNumber {text rest : PyStr} {number : NumberText}
    (hsplit : splitNumber text = some (number, rest)) : ReadsPlain number.text rest text := by
  obtain ⟨⟨whole, later⟩, hwhole, heq⟩ := Option.map_eq_some_iff.mp hsplit
  obtain ⟨rfl, rfl⟩ := Prod.mk.inj heq
  exact (readsPlain_splitSign text).append ((readsPlain_splitWhole hwhole).append
    ((readsPlain_splitFraction later).append (readsPlain_splitExponent _)))

theorem readsPlain_readScalar {std : Stdlib} {text rest : PyStr} {value : Json}
    (hread : readScalar std text = .ok (value, rest)) : ∃ used, ReadsPlain used rest text := by
  unfold readScalar at hread
  split at hread
  · next word constant hfind =>
    obtain ⟨_, rfl⟩ := Prod.mk.inj (Except.ok.inj hread)
    have hword := List.mem_of_find?_eq_some hfind
    have hstart : word.isPrefixOf text = true := by simpa using List.find?_some hfind
    obtain ⟨later, rfl⟩ := List.isPrefixOf_iff_prefix.mp hstart
    have hplain : ∀ entry ∈ jsonConstants, entry.1.all (fun c => jsonMark c = .plain) := by
      decide
    refine ⟨word, by rw [List.drop_left], fun c hc => ?_⟩
    simpa using List.all_eq_true.mp (hplain _ hword) c hc
  · unfold readNumber at hread
    split at hread
    · exact absurd hread (by simp)
    · next number later hsplit =>
      split at hread
      · exact absurd hread (by simp)
      · split at hread
        · obtain ⟨_, rfl⟩ := Prod.mk.inj (Except.ok.inj hread)
          exact ⟨number.text, readsPlain_splitNumber hsplit⟩
        · exact absurd hread (by simp)

/-! ## Arrays and objects -/

theorem skipBlank_eq (text : PyStr) :
    ∃ blank, text = blank ++ skipBlank text ∧ ∀ c ∈ blank, isJsonBlank c = true :=
  ⟨text.takeWhile isJsonBlank, List.takeWhile_append_dropWhile.symm,
    fun _ hc => List.mem_takeWhile_imp hc⟩

theorem balanced_of_isJsonBlank {blank : PyStr} (hblank : ∀ c ∈ blank, isJsonBlank c = true) :
    Balanced jsonMark blank :=
  Balanced.of_plain fun c hc => jsonMark_of_isJsonBlank (hblank c hc)

/-- The text before what remains after blanks. -/
theorem balanced_skipBlank (text : PyStr) :
    ∃ blank, text = blank ++ skipBlank text ∧ Balanced jsonMark blank := by
  obtain ⟨blank, htext, hblank⟩ := skipBlank_eq text
  exact ⟨blank, htext, balanced_of_isJsonBlank hblank⟩

section Elements

variable {β : Type} {element : PyStr → Reading β} {close : CodePoint}

theorem balanced_readSeparated (helement : ReadsBalanced element) {steps : ℕ} {text rest : PyStr}
    {values : List β} (hread : readSeparated element close steps text = .ok (values, rest)) :
    ∃ used, text = used ++ close :: rest ∧ Balanced jsonMark used := by
  induction steps generalizing text values with
  | zero => exact absurd hread (by simp [readSeparated])
  | succ steps ih =>
    rw [readSeparated] at hread
    split at hread
    · exact absurd hread (by simp)
    · next first later hfirst =>
      obtain ⟨used, rfl, hused⟩ := helement _ _ _ hfirst
      obtain ⟨blank, hlater, hblank⟩ := balanced_skipBlank later
      split at hread
      · exact absurd hread (by simp)
      · next c after hafter =>
        rw [hafter] at hlater
        split at hread
        · next hclose =>
          obtain ⟨_, rfl⟩ := Prod.mk.inj (Except.ok.inj hread)
          exact ⟨used ++ blank, by rw [hlater, hclose, List.append_assoc], hused.append hblank⟩
        · split at hread
          · next hcomma =>
            split at hread
            · exact absurd hread (by simp)
            · next others last hothers =>
              obtain ⟨_, rfl⟩ := Prod.mk.inj (Except.ok.inj hread)
              obtain ⟨gap, hgap, hgapBalanced⟩ := balanced_skipBlank after
              obtain ⟨more, hmore, hmoreBalanced⟩ := ih hothers
              have hc : Balanced jsonMark [c] :=
                Balanced.of_plain (by rw [hcomma]; simp; decide)
              refine ⟨used ++ (blank ++ ([c] ++ (gap ++ more))), ?_,
                hused.append (hblank.append (hc.append
                  (hgapBalanced.append hmoreBalanced)))⟩
              rw [hlater, hgap, hmore]
              simp
          · exact absurd hread (by simp)

theorem balanced_readEnclosed (helement : ReadsBalanced element) {text rest : PyStr}
    {values : List β} (hread : readEnclosed element close text = .ok (values, rest)) :
    ∃ used, text = used ++ close :: rest ∧ Balanced jsonMark used := by
  obtain ⟨blank, htext, hblank⟩ := balanced_skipBlank text
  unfold readEnclosed at hread
  split at hread
  · exact absurd hread (by simp)
  · next c after hafter =>
    rw [hafter] at htext
    split at hread
    · next hclose =>
      obtain ⟨_, rfl⟩ := Prod.mk.inj (Except.ok.inj hread)
      exact ⟨blank, by rw [htext, hclose], hblank⟩
    · obtain ⟨used, hused, husedBalanced⟩ := balanced_readSeparated helement hread
      exact ⟨blank ++ used, by rw [htext, hused, List.append_assoc], hblank.append husedBalanced⟩

end Elements

theorem balanced_readString {text value rest : PyStr} (hread : readString text = .ok (value, rest)) :
    ∃ body, text = body ++ doubleQuote :: rest ∧
      Balanced jsonMark (doubleQuote :: (body ++ [doubleQuote])) := by
  obtain ⟨body, htext, hbody⟩ := quoted_readString hread
  exact ⟨body, htext, Balanced.quoted jsonMark_quote hbody⟩

theorem readsBalanced_readMember {scan : PyStr → Reading Json} (hscan : ReadsBalanced scan) :
    ReadsBalanced (readMember scan) := by
  intro text value rest hread
  cases text with
  | nil => exact absurd hread (by simp [readMember])
  | cons c after =>
    rw [readMember] at hread
    split at hread
    · next hquote =>
      split at hread
      · exact absurd hread (by simp)
      · next key later hkey =>
        obtain ⟨body, rfl, hbody⟩ := balanced_readString hkey
        obtain ⟨blank, hlater, hblank⟩ := balanced_skipBlank later
        split at hread
        · exact absurd hread (by simp)
        · next d last hd =>
          rw [hd] at hlater
          split at hread
          · next hcolon =>
            split at hread
            · exact absurd hread (by simp)
            · next inner final hinner =>
              obtain ⟨_, rfl⟩ := Prod.mk.inj (Except.ok.inj hread)
              obtain ⟨gap, hgap, hgapBalanced⟩ := balanced_skipBlank last
              obtain ⟨used, hused, husedBalanced⟩ := hscan _ _ _ hinner
              have hcolonBalanced : Balanced jsonMark [d] :=
                Balanced.of_plain (by rw [hcolon]; simp; decide)
              refine ⟨(doubleQuote :: (body ++ [doubleQuote])) ++
                (blank ++ ([d] ++ (gap ++ used))), ?_,
                hbody.append (hblank.append (hcolonBalanced.append
                  (hgapBalanced.append husedBalanced)))⟩
              rw [hquote, hlater, hgap, hused]
              simp
          · exact absurd hread (by simp)
    · exact absurd hread (by simp)

/-! ## Values -/

/-- The value and whatever is nested in it is within the interpreter's limits:
so many levels, and no integer of too many digits. -/
def Readable : ℕ → Json → Prop
  | 0, .arr _ => False
  | 0, .obj _ => False
  | levels + 1, .arr items => ∀ item ∈ items, Readable levels item
  | levels + 1, .obj fields => ∀ field ∈ fields, Readable levels field.2
  | _, .int value => value.natAbs < 10 ^ maxIntDigits
  | _, _ => True

theorem map_eq_ok {β γ : Type} {f : β → γ} {reading : Reading β} {value : γ} {rest : PyStr}
    (hmap : reading.map f = .ok (value, rest)) :
    ∃ inner, reading = .ok (inner, rest) ∧ value = f inner := by
  cases reading with
  | error error => exact absurd hmap (by simp [Reading.map, Except.map])
  | ok result =>
    obtain ⟨rfl, rfl⟩ := Prod.mk.inj (Except.ok.inj hmap)
    exact ⟨result.1, rfl, rfl⟩

section Nested

variable {nested : Option (PyStr → Reading Json)} {text rest : PyStr} {value : Json}

theorem balanced_readObject (hnested : ∀ scan ∈ nested, ReadsBalanced scan)
    (hread : readObject nested text = .ok (value, rest)) :
    ∃ used, openBrace :: text = used ++ rest ∧ Balanced jsonMark used := by
  cases nested with
  | none => exact absurd hread (by simp [readObject])
  | some scan =>
    obtain ⟨fields, hfields, _⟩ := map_eq_ok hread
    obtain ⟨used, rfl, hused⟩ :=
      balanced_readEnclosed (readsBalanced_readMember (hnested scan rfl)) hfields
    exact ⟨openBrace :: (used ++ [closeBrace]), by simp,
      hused.bracketed jsonMark_openBrace jsonMark_closeBrace⟩

theorem balanced_readArray (hnested : ∀ scan ∈ nested, ReadsBalanced scan)
    (hread : readArray nested text = .ok (value, rest)) :
    ∃ used, openBracket :: text = used ++ rest ∧ Balanced jsonMark used := by
  cases nested with
  | none => exact absurd hread (by simp [readArray])
  | some scan =>
    obtain ⟨items, hitems, _⟩ := map_eq_ok hread
    obtain ⟨used, rfl, hused⟩ := balanced_readEnclosed (hnested scan rfl) hitems
    exact ⟨openBracket :: (used ++ [closeBracket]), by simp,
      hused.bracketed jsonMark_openBracket jsonMark_closeBracket⟩

end Nested

theorem readsBalanced_scanValue {std : Stdlib} {nested : Option (PyStr → Reading Json)}
    (hnested : ∀ scan ∈ nested, ReadsBalanced scan) : ReadsBalanced (scanValue std nested) := by
  intro text value rest hread
  cases text with
  | nil => exact absurd hread (by simp [scanValue])
  | cons c after =>
    rw [scanValue] at hread
    split at hread
    · next hquote =>
      obtain ⟨inner, hinner, _⟩ := map_eq_ok hread
      obtain ⟨body, rfl, hbody⟩ := balanced_readString hinner
      exact ⟨_, by rw [hquote]; simp, hbody⟩
    · split at hread
      · next hbrace => exact hbrace ▸ balanced_readObject hnested hread
      · split at hread
        · next hbracket => exact hbracket ▸ balanced_readArray hnested hread
        · obtain ⟨used, hused⟩ := readsPlain_readScalar hread
          exact ⟨used, hused.1, Balanced.of_plain hused.2⟩

theorem readsBalanced_scanOnce (std : Stdlib) (nesting : ℕ) :
    ReadsBalanced (scanOnce std nesting) := by
  induction nesting with
  | zero => exact readsBalanced_scanValue (by simp)
  | succ nesting ih =>
    apply readsBalanced_scanValue
    rintro scan ⟨⟩
    exact ih

/-- What is read without brackets around it does not end with one. -/
theorem plain_end_of_scanValue {std : Stdlib} {nested : Option (PyStr → Reading Json)}
    {c : CodePoint} {text rest : PyStr} {value : Json} (hbrace : c ≠ openBrace)
    (hbracket : c ≠ openBracket) (hread : scanValue std nested (c :: text) = .ok (value, rest)) :
    ∃ used, c :: text = used ++ rest ∧ ∀ d ∈ used.getLast?, jsonMark d ≠ .closing := by
  rw [scanValue, if_neg hbrace, if_neg hbracket] at hread
  split at hread
  · next hquote =>
    obtain ⟨inner, hinner, _⟩ := map_eq_ok hread
    obtain ⟨body, rfl, _⟩ := balanced_readString hinner
    refine ⟨c :: (body ++ [doubleQuote]), by simp, fun d hd => ?_⟩
    have hlast : d = doubleQuote := by
      rw [← List.cons_append, List.getLast?_concat] at hd
      exact (Option.some.inj hd).symm
    rw [hlast]
    decide
  · obtain ⟨used, hused⟩ := readsPlain_readScalar hread
    exact ⟨used, hused.1, fun d hd => by simp [hused.2 d (List.mem_of_mem_getLast? hd)]⟩

/-- The whole text that `json.loads` reads is balanced. -/
theorem balanced_of_loads {std : Stdlib} {nesting : ℕ} {text : PyStr} {value : Json}
    (hloads : loads std nesting text = .ok value) : Balanced jsonMark text := by
  unfold loads at hloads
  split at hloads
  · exact absurd hloads (by simp)
  · split at hloads
    · exact absurd hloads (by simp)
    · next inner rest hscan =>
      split at hloads
      · next hend =>
        obtain ⟨before, htext, hbefore⟩ := balanced_skipBlank text
        obtain ⟨used, hused, husedBalanced⟩ := readsBalanced_scanOnce std nesting _ _ _ hscan
        obtain ⟨after, hrest, hafter⟩ := balanced_skipBlank rest
        rw [htext, hused, hrest, hend, List.append_nil]
        exact hbefore.append (husedBalanced.append hafter)
      · exact absurd hloads (by simp)

/-- What `json.loads` reads is one value with white space around it. -/
theorem exists_scan_of_loads {std : Stdlib} {nesting : ℕ} {text : PyStr} {value : Json}
    (hloads : loads std nesting text = .ok value) :
    ∃ nested after, (∀ scan ∈ nested, ReadsBalanced scan) ∧
      scanValue std nested (skipBlank text) = .ok (value, after) ∧ skipBlank after = [] := by
  unfold loads at hloads
  split at hloads
  · exact absurd hloads (by simp)
  · split at hloads
    · exact absurd hloads (by simp)
    · next inner after hscan =>
      split at hloads
      · next hend =>
        rw [← Except.ok.inj hloads]
        cases nesting with
        | zero => exact ⟨none, after, by simp, hscan, hend⟩
        | succ nesting =>
          refine ⟨some (scanOnce std nesting), after, ?_, hscan, hend⟩
          rintro scan ⟨⟩
          exact readsBalanced_scanOnce std nesting
      · exact absurd hloads (by simp)

/-! ## Limits -/

/-- Every value that a reader returns is good. -/
def YieldsOnly {β : Type} (good : β → Prop) (element : PyStr → Reading β) : Prop :=
  ∀ text value rest, element text = .ok (value, rest) → good value

section Elements

variable {β : Type} {good : β → Prop} {element : PyStr → Reading β} {close : CodePoint}

theorem good_of_readSeparated (helement : YieldsOnly good element) {steps : ℕ} {text rest : PyStr}
    {values : List β} (hread : readSeparated element close steps text = .ok (values, rest)) :
    ∀ value ∈ values, good value := by
  induction steps generalizing text values with
  | zero => exact absurd hread (by simp [readSeparated])
  | succ steps ih =>
    rw [readSeparated] at hread
    split at hread
    · exact absurd hread (by simp)
    · next first later hfirst =>
      have hgood := helement _ _ _ hfirst
      split at hread
      · exact absurd hread (by simp)
      · split at hread
        · rw [← (Prod.mk.inj (Except.ok.inj hread)).1]
          exact List.forall_mem_singleton.mpr hgood
        · split at hread
          · split at hread
            · exact absurd hread (by simp)
            · next others last hothers =>
              obtain ⟨rfl, rfl⟩ := Prod.mk.inj (Except.ok.inj hread)
              exact List.forall_mem_cons.mpr ⟨hgood, ih hothers⟩
          · exact absurd hread (by simp)

theorem good_of_readEnclosed (helement : YieldsOnly good element) {text rest : PyStr}
    {values : List β} (hread : readEnclosed element close text = .ok (values, rest)) :
    ∀ value ∈ values, good value := by
  unfold readEnclosed at hread
  split at hread
  · exact absurd hread (by simp)
  · split at hread
    · rw [← (Prod.mk.inj (Except.ok.inj hread)).1]
      exact fun _ hvalue => absurd hvalue List.not_mem_nil
    · exact good_of_readSeparated helement hread

end Elements

theorem readsOnly_readMember {good : Json → Prop} {scan : PyStr → Reading Json}
    (hscan : YieldsOnly good scan) : YieldsOnly (fun field => good field.2) (readMember scan) := by
  intro text value rest hread
  cases text with
  | nil => exact absurd hread (by simp [readMember])
  | cons c after =>
    rw [readMember] at hread
    split at hread
    · split at hread
      · exact absurd hread (by simp)
      · split at hread
        · exact absurd hread (by simp)
        · split at hread
          · split at hread
            · exact absurd hread (by simp)
            · next inner final hinner =>
              rw [← (Prod.mk.inj (Except.ok.inj hread)).1]
              exact hscan _ _ _ hinner
          · exact absurd hread (by simp)
    · exact absurd hread (by simp)

theorem forall_mem_update_nil {good : PyStr × Json → Prop} {fields : Fields}
    (hgood : ∀ field ∈ fields, good field) : ∀ field ∈ Dict.update [] fields, good field := by
  have hall : ∀ entries : Fields, (∀ field ∈ entries, good field) →
      ∀ field ∈ Dict.update entries fields, good field := by
    induction fields with
    | nil => exact fun _ hentries => hentries
    | cons field fields ih =>
      intro entries hentries
      have hfield := List.forall_mem_cons.mp hgood
      exact ih hfield.2 _ (Dict.forall_mem_set good hentries hfield.1)
  exact hall [] fun _ hfield => absurd hfield List.not_mem_nil

theorem readDecimal_lt {digits : PyStr} (hdigits : ∀ c ∈ digits, isDigit c = true) :
    Url.readDecimal digits < 10 ^ digits.length := by
  have hfold : ∀ start, digits.foldl (fun value c => value * 10 + (c.val - 0x30)) start <
      (start + 1) * 10 ^ digits.length := by
    induction digits with
    | nil => exact fun start => by simp
    | cons c digits ih =>
      intro start
      have hc := hdigits c List.mem_cons_self
      simp only [isDigit, Bool.and_eq_true, decide_eq_true_eq] at hc
      calc (c :: digits).foldl (fun value c => value * 10 + (c.val - 0x30)) start
          < (start * 10 + (c.val - 0x30) + 1) * 10 ^ digits.length :=
            ih (fun d hd => hdigits d (List.mem_cons_of_mem c hd)) _
        _ ≤ ((start + 1) * 10) * 10 ^ digits.length := Nat.mul_le_mul_right _ (by omega)
        _ = (start + 1) * 10 ^ (c :: digits).length := by
            rw [List.length_cons, pow_succ]
            ring
  simpa [Url.readDecimal] using hfold 0

theorem isDigit_of_splitWhole {text whole rest : PyStr}
    (hsplit : splitWhole text = some (whole, rest)) : ∀ c ∈ whole, isDigit c = true := by
  cases text with
  | nil => exact absurd hsplit (by simp [splitWhole])
  | cons c after =>
    rw [splitWhole] at hsplit
    split at hsplit
    · next hzero =>
      rw [← (Prod.mk.inj (Option.some.inj hsplit)).1, List.forall_mem_singleton, hzero]
      decide
    · split at hsplit
      · next hdigit =>
        rw [← (Prod.mk.inj (Option.some.inj hsplit)).1]
        exact List.forall_mem_cons.mpr ⟨hdigit, fun _ hd => List.mem_takeWhile_imp hd⟩
      · exact absurd hsplit (by simp)

theorem isDigit_whole {text rest : PyStr} {number : NumberText}
    (hsplit : splitNumber text = some (number, rest)) : ∀ c ∈ number.whole, isDigit c = true := by
  obtain ⟨⟨whole, later⟩, hwhole, heq⟩ := Option.map_eq_some_iff.mp hsplit
  rw [← (Prod.mk.inj heq).1]
  exact isDigit_of_splitWhole hwhole

theorem readable_of_readScalar {std : Stdlib} {text rest : PyStr} {value : Json}
    (hread : readScalar std text = .ok (value, rest)) (levels : ℕ) : Readable levels value := by
  unfold readScalar at hread
  split at hread
  · next word constant hfind =>
    have hword := List.mem_of_find?_eq_some hfind
    rw [← (Prod.mk.inj (Except.ok.inj hread)).1]
    simp only [jsonConstants, List.mem_cons, Prod.mk.injEq, List.not_mem_nil, or_false] at hword
    obtain ⟨_, rfl⟩ | ⟨_, rfl⟩ | ⟨_, rfl⟩ | ⟨_, rfl⟩ | ⟨_, rfl⟩ | ⟨_, rfl⟩ := hword <;>
      simp [Readable]
  · unfold readNumber at hread
    split at hread
    · exact absurd hread (by simp)
    · next number later hsplit =>
      split at hread
      · exact absurd hread (by simp)
      · next hfits =>
        split at hread
        · next inner hvalue =>
          rw [← (Prod.mk.inj (Except.ok.inj hread)).1]
          unfold NumberText.value at hvalue
          split at hvalue
          · next hint =>
            have hlength : number.whole.length ≤ maxIntDigits := by
              by_contra hlong
              exact hfits ⟨hint.1, hint.2, not_le.mp hlong⟩
            have habs : number.intValue.natAbs = Url.readDecimal number.whole := by
              unfold NumberText.intValue
              split <;> simp
            rw [← Option.some.inj hvalue]
            simp only [Readable, habs]
            exact (readDecimal_lt (isDigit_whole hsplit)).trans_le
              (Nat.pow_le_pow_right (by decide) hlength)
          · obtain ⟨value, _, rfl⟩ := Option.map_eq_some_iff.mp hvalue
            simp [Readable]
        · exact absurd hread (by simp)

theorem readable_of_scanOnce {std : Stdlib} {nesting : ℕ} :
    YieldsOnly (Readable nesting) (scanOnce std nesting) := by
  have hscalar : ∀ {nested text value rest} {levels : ℕ},
      scanValue std nested text = .ok (value, rest) →
      (∀ after, readObject nested after = .ok (value, rest) → Readable levels value) →
      (∀ after, readArray nested after = .ok (value, rest) → Readable levels value) →
        Readable levels value := by
    intro nested text value rest levels hread hobject harray
    cases text with
    | nil => exact absurd hread (by simp [scanValue])
    | cons c after =>
      rw [scanValue] at hread
      split at hread
      · obtain ⟨inner, _, rfl⟩ := map_eq_ok hread
        simp [Readable]
      · split at hread
        · exact hobject after hread
        · split at hread
          · exact harray after hread
          · exact readable_of_readScalar hread levels
  induction nesting with
  | zero =>
    intro text value rest hread
    exact hscalar hread (fun _ hobject => absurd hobject (by simp [readObject]))
      (fun _ harray => absurd harray (by simp [readArray]))
  | succ nesting ih =>
    intro text value rest hread
    apply hscalar hread
    · intro after hobject
      obtain ⟨fields, hfields, rfl⟩ := map_eq_ok hobject
      exact forall_mem_update_nil (good_of_readEnclosed (readsOnly_readMember ih) hfields)
    · intro after harray
      obtain ⟨items, hitems, rfl⟩ := map_eq_ok harray
      exact good_of_readEnclosed ih hitems

theorem readable_of_loads {std : Stdlib} {nesting : ℕ} {text : PyStr} {value : Json}
    (hloads : loads std nesting text = .ok value) : Readable nesting value := by
  unfold loads at hloads
  split at hloads
  · exact absurd hloads (by simp)
  · split at hloads
    · exact absurd hloads (by simp)
    · next inner rest hscan =>
      split at hloads
      · rw [← Except.ok.inj hloads]
        exact readable_of_scanOnce _ _ _ hscan
      · exact absurd hloads (by simp)

end RootSeeker.Python
