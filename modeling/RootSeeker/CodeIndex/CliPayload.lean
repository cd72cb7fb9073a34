import RootSeeker.Python.JsonGrammar
import RootSeeker.Python.JsonText

/-!
# The answer of the command line

`_parse_cli_payload`: the output of a GitNexus command as JSON.  Progress lines
may stand before the answer; then the text is read from its last opening brace
and, failing that, from its last opening bracket.
-/

namespace RootSeeker.CodeIndex

open Python Brackets

/-- `text[text.rfind(mark):]`. -/
def fromLast (mark : CodePoint) : PyStr → Option PyStr
  | [] => none
  | c :: rest => (fromLast mark rest).or (if c = mark then some (c :: rest) else none)

/-- The text read from the last of each of the marks, in this order. -/
def trailingPayload (std : Stdlib) (nesting : ℕ) (text : PyStr) :
    List CodePoint → Except LoadsError Json
  | [] => .ok (.obj [(py "text", .str text)])
  | mark :: marks =>
    match fromLast mark text with
    | none => trailingPayload std nesting text marks
    | some snippet =>
      match loads std nesting snippet with
      | .error .decodeError => trailingPayload std nesting text marks
      | outcome => outcome

/-- `_parse_cli_payload`. -/
def parseCliPayload (std : Stdlib) (nesting : ℕ) (stdout : PyStr) : Except LoadsError Json :=
  if strip stdout = [] then .ok .null
  else
    match loads std nesting (strip stdout) with
    | .error .decodeError => trailingPayload std nesting (strip stdout) [openBrace, openBracket]
    | outcome => outcome

/-! ## The last opening mark -/

theorem fromLast_eq_none {mark : CodePoint} {text : PyStr} (hmark : mark ∉ text) :
    fromLast mark text = none := by
  induction text with
  | nil => rfl
  | cons c rest ih =>
    have hc : c ≠ mark := fun heq => hmark (heq ▸ List.mem_cons_self)
    rw [fromLast, ih (List.not_mem_of_not_mem_cons hmark), if_neg hc]
    rfl

theorem fromLast_append_cons {mark : CodePoint} {after : PyStr} (before : PyStr)
    (hmark : mark ∉ after) : fromLast mark (before ++ mark :: after) = some (mark :: after) := by
  induction before with
  | nil => rw [List.nil_append, fromLast, fromLast_eq_none hmark, if_pos rfl]; rfl
  | cons c before ih => rw [List.cons_append, fromLast, ih]; rfl

/-- The last occurrence of a character. -/
theorem exists_last {mark : CodePoint} {text : PyStr} (hmark : mark ∈ text) :
    ∃ before after, text = before ++ mark :: after ∧ mark ∉ after := by
  induction text with
  | nil => exact absurd hmark List.not_mem_nil
  | cons c rest ih =>
    by_cases hrest : mark ∈ rest
    · obtain ⟨before, after, rfl, hafter⟩ := ih hrest
      exact ⟨c :: before, after, rfl, hafter⟩
    · have hc : mark = c := (List.mem_cons.mp hmark).resolve_right hrest
      exact ⟨[], rest, by rw [hc]; rfl, hrest⟩

/-- A mark before the text is not the last one where the text has one as well. -/
theorem fromLast_append {mark : CodePoint} {text : PyStr} (before : PyStr) (hmark : mark ∈ text) :
    fromLast mark (before ++ text) = fromLast mark text := by
  obtain ⟨left, right, rfl, hright⟩ := exists_last hmark
  rw [← List.append_assoc, fromLast_append_cons _ hright, fromLast_append_cons _ hright]

/-! ## Output that does not begin with the answer -/

/-- The text begins with an integer of more digits than the interpreter converts. -/
def BeginsTooLong (text : PyStr) : Prop :=
  ∃ reading ∈ splitNumber text, reading.1.TooLong

theorem splitNumber_eq_none {text : PyStr} {c : CodePoint}
    (hhead : (splitSign text).2.head? = some c) (hc : isDigit c = false) :
    splitNumber text = none := by
  have hzero : c ≠ CodePoint.ofChar '0' := by
    rintro rfl
    exact absurd hc (by decide)
  have hwhole : splitWhole (splitSign text).2 = none := by
    cases hsplit : (splitSign text).2 with
    | nil => rfl
    | cons d rest =>
      rw [hsplit] at hhead
      rw [show d = c from Option.some.inj hhead, splitWhole, if_neg hzero, if_neg (by simp [hc])]
  rw [splitNumber, hwhole]
  rfl

theorem not_beginsTooLong {text : PyStr} (hnone : splitNumber text = none) :
    ¬BeginsTooLong text := by
  rintro ⟨_, hreading, _⟩
  rw [hnone] at hreading
  exact absurd hreading (by simp)

theorem beginsTooLong_iff {text rest : PyStr} {number : NumberText}
    (hsplit : splitNumber text = some (number, rest)) : BeginsTooLong text ↔ number.TooLong := by
  constructor
  · rintro ⟨reading, hreading, hlong⟩
    rw [hsplit] at hreading
    rwa [← Option.some.inj hreading] at hlong
  · exact fun hlong => ⟨_, hsplit, hlong⟩

theorem readScalar_error {std : Stdlib} {text : PyStr} {error : LoadsError}
    (hread : readScalar std text = .error error) :
    (error = .digitLimit ∧ BeginsTooLong text) ∨ (error = .decodeError ∧ ¬BeginsTooLong text) := by
  unfold readScalar at hread
  split at hread
  · exact absurd hread (by simp)
  · unfold readNumber at hread
    split at hread
    · next hnone => exact Or.inr ⟨(Except.error.inj hread).symm, not_beginsTooLong hnone⟩
    · next number rest hsplit =>
      rw [beginsTooLong_iff hsplit]
      split at hread
      · next hlong => exact Or.inl ⟨(Except.error.inj hread).symm, hlong⟩
      · next hfits =>
        split at hread
        · exact absurd hread (by simp)
        · exact Or.inr ⟨(Except.error.inj hread).symm, hfits⟩

theorem not_beginsTooLong_of_readScalar {std : Stdlib} {text rest : PyStr} {value : Json}
    (hread : readScalar std text = .ok (value, rest)) : ¬BeginsTooLong text := by
  unfold readScalar at hread
  split at hread
  · next word constant hfind =>
    have hstart : word.isPrefixOf text = true := by simpa using List.find?_some hfind
    obtain ⟨later, rfl⟩ := List.isPrefixOf_iff_prefix.mp hstart
    obtain ⟨c, hc, hdigit⟩ := head_of_constant _ (List.mem_of_find?_eq_some hfind) later
    exact not_beginsTooLong (splitNumber_eq_none hc hdigit)
  · unfold readNumber at hread
    split at hread
    · exact absurd hread (by simp)
    · next number later hsplit =>
      rw [beginsTooLong_iff hsplit]
      split at hread
      · exact absurd hread (by simp)
      · next hfits => exact hfits

section Unbracketed

variable {std : Stdlib} {nested : Option (PyStr → Reading Json)} {c : CodePoint} {text : PyStr}
  (hbrace : c ≠ openBrace) (hbracket : c ≠ openBracket)

include hbrace hbracket

theorem scanValue_error {error : LoadsError}
    (hread : scanValue std nested (c :: text) = .error error) :
    (error = .digitLimit ∧ BeginsTooLong (c :: text)) ∨
      (error = .decodeError ∧ ¬BeginsTooLong (c :: text)) := by
  rw [scanValue, if_neg hbrace, if_neg hbracket] at hread
  split at hread
  · next hquote =>
    rw [hquote]
    refine Or.inr ⟨?_, not_beginsTooLong (splitNumber_eq_none rfl (by decide))⟩
    unfold readString at hread
    split at hread
    · exact absurd hread (by simp [Reading.map, Except.map])
    · exact (Except.error.inj hread).symm
  · exact readScalar_error hread

theorem not_beginsTooLong_of_scanValue {value : Json} {rest : PyStr}
    (hread : scanValue std nested (c :: text) = .ok (value, rest)) :
    ¬BeginsTooLong (c :: text) := by
  rw [scanValue, if_neg hbrace, if_neg hbracket] at hread
  split at hread
  · next hquote =>
    rw [hquote]
    exact not_beginsTooLong (splitNumber_eq_none rfl (by decide))
  · exact not_beginsTooLong_of_readScalar hread

/-- What begins without a bracket and ends with one is not JSON. -/
theorem loads_of_progress {nesting : ℕ} {closing : CodePoint} (hblank : isJsonBlank c = false)
    (hlast : (c :: text).getLast? = some closing) (hclosing : jsonMark closing = .closing) :
    (BeginsTooLong (c :: text) ∧ loads std nesting (c :: text) = .error .digitLimit) ∨
      (¬BeginsTooLong (c :: text) ∧ loads std nesting (c :: text) = .error .decodeError) := by
  have hscan : ∃ nested, scanOnce std nesting = scanValue std nested := by
    cases nesting with
    | zero => exact ⟨none, rfl⟩
    | succ nesting => exact ⟨_, rfl⟩
  obtain ⟨nested, hscan⟩ := hscan
  by_cases hmark : c = byteOrderMark
  · rw [hmark]
    refine Or.inr ⟨not_beginsTooLong (splitNumber_eq_none rfl (by decide)), ?_⟩
    rw [loads, if_pos (by rfl)]
  · have hhead : (c :: text).head? ≠ some byteOrderMark :=
      fun hsame => hmark (Option.some.inj hsame)
    rw [loads, if_neg hhead, skipBlank_cons hblank, hscan]
    cases hread : scanValue std nested (c :: text) with
    | error error =>
      obtain ⟨rfl, hlong⟩ | ⟨rfl, hlong⟩ := scanValue_error hbrace hbracket hread
      · exact Or.inl ⟨hlong, rfl⟩
      · exact Or.inr ⟨hlong, rfl⟩
    | ok reading =>
      obtain ⟨value, rest⟩ := reading
      refine Or.inr ⟨not_beginsTooLong_of_scanValue hbrace hbracket hread, if_neg ?_⟩
      intro hend
      obtain ⟨used, hused, hplain⟩ := plain_end_of_scanValue hbrace hbracket hread
      obtain ⟨blank, hrest, hblanks⟩ := skipBlank_eq rest
      rw [hend, List.append_nil] at hrest
      rw [hused, hrest, List.getLast?_append] at hlast
      cases hfinal : blank.getLast? with
      | none =>
        rw [hfinal, Option.none_or] at hlast
        exact hplain closing hlast hclosing
      | some d =>
        rw [hfinal, Option.some_or] at hlast
        have hd := jsonMark_of_isJsonBlank (hblanks d (List.mem_of_getLast? hfinal))
        rw [Option.some.inj hlast, hclosing] at hd
        exact absurd hd (by simp)

end Unbracketed

/-! ## The output as a whole -/

/-- Progress lines hold no bracket and no brace. -/
def IsProgress (text : PyStr) : Prop :=
  ∀ c ∈ text, c ≠ openBrace ∧ c ≠ closeBrace ∧ c ≠ openBracket ∧ c ≠ closeBracket

/-- Decided along the text, not over all code points. -/
instance (text : PyStr) : Decidable (IsProgress text) :=
  decidable_of_iff (text.all fun c => c ≠ openBrace ∧ c ≠ closeBrace ∧ c ≠ openBracket ∧
    c ≠ closeBracket) (by simp [IsProgress])

section Output

variable {opening closing : CodePoint} (hopening : isSpace opening = false)
  (hclosing : isSpace closing = false)

include hopening hclosing

/-- Stripping takes the white space before the progress and after the answer. -/
theorem strip_output (progress body : PyStr) {trailing : PyStr}
    (htrailing : ∀ c ∈ trailing, isSpace c = true) :
    strip (progress ++ (opening :: (body ++ [closing]) ++ trailing)) =
      progress.dropWhile isSpace ++ opening :: (body ++ [closing]) := by
  have hfront : (progress ++ (opening :: (body ++ [closing]) ++ trailing)).dropWhile isSpace =
      progress.dropWhile isSpace ++ (opening :: (body ++ [closing]) ++ trailing) := by
    rw [List.dropWhile_append]
    split
    · next hnone =>
      rw [List.isEmpty_iff.mp hnone, List.cons_append,
        List.dropWhile_cons_of_neg (by simp [hopening])]
      rfl
    · rfl
  have hback : trailing.rdropWhile isSpace = [] :=
    List.rdropWhile_eq_nil_iff.mpr htrailing
  have hlast : (progress.dropWhile isSpace ++ opening :: (body ++ [closing])) =
      (progress.dropWhile isSpace ++ opening :: body) ++ [closing] := by
    simp
  rw [strip, stripBy, hfront, ← List.append_assoc, rdropWhile_append, if_pos hback, hlast,
    List.rdropWhile_concat_neg _ _ _ (by simp [hclosing])]

end Output

/-- The last opening mark inside an array or object. -/
theorem fromLast_of_mem {mark opening closing : CodePoint} {body : PyStr}
    (hmark : mark ∈ body) (hne : mark ≠ closing) :
    ∃ before after, body = before ++ mark :: after ∧
      fromLast mark (opening :: (body ++ [closing])) = some (mark :: after ++ [closing]) := by
  obtain ⟨before, after, rfl, hafter⟩ := exists_last hmark
  have hlast : mark ∉ after ++ [closing] := by
    rw [List.mem_append, List.mem_singleton]
    exact not_or.mpr ⟨hafter, hne⟩
  refine ⟨before, after, rfl, ?_⟩
  have hfound := fromLast_append_cons (opening :: before) hlast
  simpa using hfound

theorem exists_of_fromLast {mark : CodePoint} {text snippet : PyStr}
    (hsnippet : fromLast mark text = some snippet) : ∃ rest, snippet = mark :: rest := by
  by_cases hmark : mark ∈ text
  · obtain ⟨before, after, rfl, hafter⟩ := exists_last hmark
    rw [fromLast_append_cons before hafter] at hsnippet
    exact ⟨after, (Option.some.inj hsnippet).symm⟩
  · rw [fromLast_eq_none hmark] at hsnippet
    exact absurd hsnippet (by simp)

section Kinds

variable {std : Stdlib} {nesting : ℕ} {rest : PyStr} {value : Json}

theorem exists_obj_of_loads (hloads : loads std nesting (openBrace :: rest) = .ok value) :
    ∃ fields, value = .obj fields := by
  obtain ⟨nested, after, _, hscan, _⟩ := exists_scan_of_loads hloads
  rw [skipBlank_cons (by decide), scanValue, if_neg (by decide), if_pos rfl] at hscan
  cases nested with
  | none => exact absurd hscan (by simp [readObject])
  | some scan =>
    obtain ⟨_, _, hvalue⟩ := map_eq_ok hscan
    exact ⟨_, hvalue⟩

theorem exists_arr_of_loads (hloads : loads std nesting (openBracket :: rest) = .ok value) :
    ∃ items, value = .arr items := by
  obtain ⟨nested, after, _, hscan, _⟩ := exists_scan_of_loads hloads
  rw [skipBlank_cons (by decide), scanValue, if_neg (by decide), if_neg (by decide),
    if_pos rfl] at hscan
  cases nested with
  | none => exact absurd hscan (by simp [readArray])
  | some scan =>
    obtain ⟨_, _, hvalue⟩ := map_eq_ok hscan
    exact ⟨_, hvalue⟩

end Kinds

section Trailing

variable {std : Stdlib} {nesting : ℕ} {text : PyStr} {mark : CodePoint} {marks : List CodePoint}

theorem trailingPayload_ok {snippet : PyStr} {value : Json}
    (hsnippet : fromLast mark text = some snippet) (hloads : loads std nesting snippet = .ok value) :
    trailingPayload std nesting text (mark :: marks) = .ok value := by
  simp only [trailingPayload, hsnippet, hloads]

theorem trailingPayload_next
    (hfail : ∀ snippet ∈ fromLast mark text, loads std nesting snippet = .error .decodeError) :
    trailingPayload std nesting text (mark :: marks) = trailingPayload std nesting text marks := by
  cases hsnippet : fromLast mark text with
  | none => simp only [trailingPayload, hsnippet]
  | some snippet => simp only [trailingPayload, hsnippet, hfail snippet hsnippet]

/-- Where an answer came from, and what was tried before. -/
theorem trailingPayload_cons_eq_ok {value : Json}
    (hanswer : trailingPayload std nesting text (mark :: marks) = .ok value) :
    (∃ snippet ∈ fromLast mark text, loads std nesting snippet = .ok value) ∨
      (∀ snippet ∈ fromLast mark text, loads std nesting snippet = .error .decodeError) ∧
        trailingPayload std nesting text marks = .ok value := by
  cases hsnippet : fromLast mark text with
  | none =>
    simp only [trailingPayload, hsnippet] at hanswer
    exact Or.inr ⟨fun _ hnone => absurd hnone (by simp), hanswer⟩
  | some snippet =>
    simp only [trailingPayload, hsnippet] at hanswer
    cases hloads : loads std nesting snippet with
    | ok other =>
      rw [hloads] at hanswer
      exact Or.inl ⟨snippet, rfl, hloads.trans hanswer⟩
    | error error =>
      rw [hloads] at hanswer
      cases error with
      | decodeError =>
        refine Or.inr ⟨fun other hother => ?_, hanswer⟩
        rw [← Option.some.inj hother, hloads]
      | digitLimit => exact absurd hanswer (by simp)
      | recursionLimit => exact absurd hanswer (by simp)

end Trailing

/-- The search from the end of the text meets the answer itself.  For an object
no other brace is opened in its text; for an array no other bracket is, and what
begins at its last brace, if it has one, is not JSON either. -/
def Alone (std : Stdlib) (nesting : ℕ) (text : PyStr) : Json → Prop
  | .obj _ => openBrace ∉ text.tail
  | .arr _ => openBracket ∉ text.tail ∧
      ∀ snippet ∈ fromLast openBrace text, loads std nesting snippet = .error .decodeError
  | _ => False

section Search

variable {std : Stdlib} {nesting : ℕ} {lead text : PyStr}

theorem trailingPayload_obj_iff {fields : List (PyStr × Json)}
    (hwrites : Writes std text (.obj fields)) (hreadable : Readable nesting (.obj fields)) :
    trailingPayload std nesting (lead ++ text) [openBrace, openBracket] = .ok (.obj fields) ↔
      openBrace ∉ text.tail := by
  obtain ⟨body, rfl⟩ := hwrites.exists_body_obj
  constructor
  · intro hanswer hmark
    have hbody : openBrace ∈ body := by
      refine (List.mem_append.mp hmark).resolve_right fun hclose => ?_
      exact absurd (List.mem_singleton.mp hclose) (by decide)
    cases trailingPayload_cons_eq_ok hanswer with
    | inl hfound =>
      obtain ⟨snippet, hsnippet, hloads⟩ := hfound
      obtain ⟨before, after, rfl, hlast⟩ :=
        @fromLast_of_mem _ openBrace closeBrace _ hbody (by decide)
      rw [fromLast_append lead List.mem_cons_self, hlast] at hsnippet
      rw [← Option.some.inj hsnippet] at hloads
      exact loads_ne_ok_of_suffix (hwrites.balanced_obj hreadable) jsonMark_openBrace
        jsonMark_closeBrace _ hloads
    | inr hnext =>
      cases trailingPayload_cons_eq_ok hnext.2 with
      | inl hfound =>
        obtain ⟨snippet, hsnippet, hloads⟩ := hfound
        obtain ⟨rest, rfl⟩ := exists_of_fromLast hsnippet
        obtain ⟨_, hkind⟩ := exists_arr_of_loads hloads
        exact absurd hkind (by simp)
      | inr hrest =>
        have hfallback := Json.obj.inj (Except.ok.inj hrest.2)
        rw [← hfallback] at hwrites
        have hlt := hwrites.length_lt_of_field
        rw [List.length_append] at hlt
        omega
  · intro halone
    exact trailingPayload_ok (fromLast_append_cons lead halone) (hwrites.loads hreadable)

theorem trailingPayload_arr_iff {items : List Json} (hlead : openBrace ∉ lead)
    (hwrites : Writes std text (.arr items)) (hreadable : Readable nesting (.arr items)) :
    trailingPayload std nesting (lead ++ text) [openBrace, openBracket] = .ok (.arr items) ↔
      openBracket ∉ text.tail ∧
        ∀ snippet ∈ fromLast openBrace text, loads std nesting snippet = .error .decodeError := by
  have hbrace : fromLast openBrace (lead ++ text) = fromLast openBrace text := by
    by_cases hmark : openBrace ∈ text
    · exact fromLast_append lead hmark
    · have hnone : openBrace ∉ lead ++ text := by
        rw [List.mem_append]
        exact not_or.mpr ⟨hlead, hmark⟩
      rw [fromLast_eq_none hnone, fromLast_eq_none hmark]
  obtain ⟨body, rfl⟩ := hwrites.exists_body_arr
  constructor
  · intro hanswer
    cases trailingPayload_cons_eq_ok hanswer with
    | inl hfound =>
      obtain ⟨snippet, hsnippet, hloads⟩ := hfound
      obtain ⟨rest, rfl⟩ := exists_of_fromLast hsnippet
      obtain ⟨_, hkind⟩ := exists_obj_of_loads hloads
      exact absurd hkind (by simp)
    | inr hnext =>
      refine ⟨fun hmark => ?_, hbrace ▸ hnext.1⟩
      have hbody : openBracket ∈ body := by
        refine (List.mem_append.mp hmark).resolve_right fun hclose => ?_
        exact absurd (List.mem_singleton.mp hclose) (by decide)
      cases trailingPayload_cons_eq_ok hnext.2 with
      | inl hfound =>
        obtain ⟨snippet, hsnippet, hloads⟩ := hfound
        obtain ⟨before, after, rfl, hlast⟩ :=
          @fromLast_of_mem _ openBracket closeBracket _ hbody (by decide)
        rw [fromLast_append lead List.mem_cons_self, hlast] at hsnippet
        rw [← Option.some.inj hsnippet] at hloads
        exact loads_ne_ok_of_suffix (hwrites.balanced_arr hreadable) jsonMark_openBracket
          jsonMark_closeBracket _ hloads
      | inr hrest => exact absurd (Except.ok.inj hrest.2) (by simp)
  · rintro ⟨halone, hsnippet⟩
    rw [trailingPayload_next (hbrace ▸ hsnippet)]
    exact trailingPayload_ok (fromLast_append_cons lead halone) (hwrites.loads hreadable)

end Search

/-- An array or an object. -/
def IsContainer : Json → Prop
  | .arr _ => True
  | .obj _ => True
  | _ => False

theorem exists_enclosed {std : Stdlib} {text : PyStr} {value : Json}
    (hwrites : Writes std text value) (hcontainer : IsContainer value) :
    ∃ opening body closing, text = opening :: (body ++ [closing]) ∧ isSpace opening = false ∧
      isSpace closing = false ∧ jsonMark closing = .closing := by
  cases value with
  | obj fields =>
    obtain ⟨body, rfl⟩ := hwrites.exists_body_obj
    exact ⟨_, body, _, rfl, by decide, by decide, by decide⟩
  | arr items =>
    obtain ⟨body, rfl⟩ := hwrites.exists_body_arr
    exact ⟨_, body, _, rfl, by decide, by decide, by decide⟩
  | null | bool _ | int _ | float _ | str _ => exact hcontainer.elim

theorem trailingPayload_iff {std : Stdlib} {nesting : ℕ} {lead text : PyStr} {value : Json}
    (hlead : IsProgress lead) (hwrites : Writes std text value) (hcontainer : IsContainer value)
    (hreadable : Readable nesting value) :
    trailingPayload std nesting (lead ++ text) [openBrace, openBracket] = .ok value ↔
      Alone std nesting text value := by
  cases value with
  | obj fields => exact trailingPayload_obj_iff hwrites hreadable
  | arr items => exact trailingPayload_arr_iff (fun hmark => (hlead _ hmark).1 rfl) hwrites hreadable
  | null | bool _ | int _ | float _ | str _ => exact hcontainer.elim

/-- An answer that is read was within the limits. -/
theorem readable_of_trailingPayload {std : Stdlib} {nesting : ℕ} {lead text : PyStr} {value : Json}
    (hwrites : Writes std text value)
    (hanswer : trailingPayload std nesting (lead ++ text) [openBrace, openBracket] = .ok value) :
    Readable nesting value := by
  cases trailingPayload_cons_eq_ok hanswer with
  | inl hfound =>
    obtain ⟨_, _, hloads⟩ := hfound
    exact readable_of_loads hloads
  | inr hnext =>
    cases trailingPayload_cons_eq_ok hnext.2 with
    | inl hfound =>
      obtain ⟨_, _, hloads⟩ := hfound
      exact readable_of_loads hloads
    | inr hrest =>
      rw [← Except.ok.inj hrest.2] at hwrites
      have hlt := hwrites.length_lt_of_field
      rw [List.length_append] at hlt
      omega

/-- The answer is returned exactly if the interpreter can read it and either
nothing but white space stands before it or the output does not begin with an
integer of too many digits and the answer opens no second bracket of its own
kind. -/
theorem parseCliPayload_eq_ok_iff {std : Stdlib} (nesting : ℕ) {progress text trailing : PyStr}
    {value : Json} (hwrites : Writes std text value) (hcontainer : IsContainer value)
    (hprogress : IsProgress progress) (htrailing : ∀ c ∈ trailing, isSpace c = true) :
    parseCliPayload std nesting (progress ++ (text ++ trailing)) = .ok value ↔
      Readable nesting value ∧ ((∀ c ∈ progress, isSpace c = true) ∨
        (¬BeginsTooLong (strip (progress ++ text)) ∧ Alone std nesting text value)) := by
  obtain ⟨opening, body, closing, rfl, hopen, hclose, hmark⟩ := exists_enclosed hwrites hcontainer
  have hshort := @strip_output _ _ hopen hclose progress body [] (by simp)
  rw [List.append_nil] at hshort
  rw [parseCliPayload, strip_output hopen hclose progress body htrailing, if_neg (by simp), hshort]
  cases hlead : progress.dropWhile isSpace with
  | nil =>
    have hblank : ∀ c ∈ progress, isSpace c = true := List.dropWhile_eq_nil_iff.mp hlead
    rw [List.nil_append]
    constructor
    · intro hanswer
      refine ⟨?_, Or.inl hblank⟩
      cases hloads : loads std nesting (opening :: (body ++ [closing])) with
      | ok other =>
        rw [hloads] at hanswer
        exact readable_of_loads (hloads.trans hanswer)
      | error error =>
        rw [hloads] at hanswer
        cases error with
        | decodeError => exact @readable_of_trailingPayload _ _ [] _ _ hwrites hanswer
        | digitLimit => exact absurd hanswer (by simp)
        | recursionLimit => exact absurd hanswer (by simp)
    · rintro ⟨hreadable, _⟩
      rw [hwrites.loads hreadable]
  | cons c lead =>
    have hfirst : isSpace c = false := by
      have hne : progress.dropWhile isSpace ≠ [] := by simp [hlead]
      have hkept := List.head_dropWhile_not isSpace hne
      simpa only [hlead, List.head_cons, Bool.not_eq_true] using hkept
    have hleadMem : ∀ d ∈ c :: lead, d ∈ progress := fun d hd =>
      (List.dropWhile_sublist isSpace).subset (hlead ▸ hd)
    have hcProgress := hprogress c (hleadMem c List.mem_cons_self)
    have hjson : isJsonBlank c = false := by
      rw [Bool.eq_false_iff] at hfirst ⊢
      intro hblank
      apply hfirst
      simp only [isJsonBlank, Bool.or_eq_true, decide_eq_true_eq] at hblank
      simp only [isSpace, Bool.or_eq_true, Bool.and_eq_true, decide_eq_true_eq]
      omega
    have hnotBlank : ¬∀ d ∈ progress, isSpace d = true := fun hall =>
      absurd (hall c (hleadMem c List.mem_cons_self)) (by simp [hfirst])
    have hlast : (c :: (lead ++ opening :: (body ++ [closing]))).getLast? = some closing := by
      have hsplit : c :: (lead ++ opening :: (body ++ [closing])) =
          (c :: (lead ++ opening :: body)) ++ [closing] := by
        simp
      rw [hsplit, List.getLast?_concat]
    rw [List.cons_append]
    cases @loads_of_progress std _ _ hcProgress.1 hcProgress.2.2.1 nesting _ hjson
        hlast hmark with
    | inl hlong =>
      rw [hlong.2]
      exact iff_of_false (by simp) fun hboth => hboth.2.elim hnotBlank fun hcase =>
        hcase.1 hlong.1
    | inr hfail =>
      rw [hfail.2]
      have hiff := @trailingPayload_iff _ nesting (c :: lead) _ _
        (fun d hd => hprogress d (hleadMem d hd)) hwrites hcontainer
      constructor
      · intro hanswer
        have hreadable := @readable_of_trailingPayload _ _ (c :: lead) _ _ hwrites hanswer
        exact ⟨hreadable, Or.inr ⟨hfail.1, (hiff hreadable).mp hanswer⟩⟩
      · rintro ⟨hreadable, hcase⟩
        exact (hiff hreadable).mpr (hcase.resolve_left hnotBlank).2

/-- A flat answer after a progress line. -/
theorem flat_answer_after_progress :
    parseCliPayload asciiStdlib 1 (py "done\n" ++ (py "\x7b\"ok\":true\x7d" ++ py "\n")) =
      .ok (.obj [(py "ok", .bool true)]) := by
  have hvalue : Writes asciiStdlib (py "true") (.bool true) :=
    Writes.constant (by simp [jsonConstants])
  have hwrites : Writes asciiStdlib (py "\x7b\"ok\":true\x7d") (.obj [(py "ok", .bool true)]) :=
    @writes_single _ (py "ok") _ _ (by decide) hvalue
  refine (parseCliPayload_eq_ok_iff 1 hwrites trivial (by decide) ?_).mpr ⟨?_, Or.inr ⟨?_, ?_⟩⟩
  · exact List.all_eq_true.mp (by decide : (py "\n").all isSpace = true)
  · simp [Readable]
  · exact not_beginsTooLong (splitNumber_eq_none (c := CodePoint.ofChar 'd') rfl (by decide))
  · exact (by decide : openBrace ∉ (py "\x7b\"ok\":true\x7d").tail)

/-- An object in the answer hides the answer. -/
theorem nested_answer_is_lost :
    Writes asciiStdlib (py "\x7b\"repo\":\x7b\"name\":null\x7d\x7d")
        (.obj [(py "repo", .obj [(py "name", .null)])]) ∧
      IsProgress (py "done\n") ∧
      parseCliPayload asciiStdlib 2
          (py "done\n" ++ py "\x7b\"repo\":\x7b\"name\":null\x7d\x7d") ≠
        .ok (.obj [(py "repo", .obj [(py "name", .null)])]) := by
  have hvalue : Writes asciiStdlib (py "null") .null := Writes.constant (by simp [jsonConstants])
  have hinner : Writes asciiStdlib (py "\x7b\"name\":null\x7d") (.obj [(py "name", .null)]) :=
    @writes_single _ (py "name") _ _ (by decide) hvalue
  refine ⟨@writes_single _ (py "repo") _ _ (by decide) hinner, by decide, fun hanswer => ?_⟩
  have hprinted := congrArg (fun outcome => outcome.toOption.map (dumps asciiStdlib)) hanswer
  have hlost : (parseCliPayload asciiStdlib 2
      (py "done\n" ++ py "\x7b\"repo\":\x7b\"name\":null\x7d\x7d")).toOption.map
        (dumps asciiStdlib) =
      some (py "\x7b\"text\": \"done\\n\x7b\\\"repo\\\":\x7b\\\"name\\\":null\x7d\x7d\"\x7d") := by
    decide +kernel
  rw [hlost] at hprinted
  revert hprinted
  decide +kernel

end RootSeeker.CodeIndex
