import RootSeeker.Python.Repr
import RootSeeker.Python.Utf8

/-!
# Line cells of Zoekt

Current servers send the line of a hit in Base64, older ones as plain text, and
one decoder reads both.  Characters outside the alphabet are passed over, so
most plain lines are decoded as well.
-/

namespace RootSeeker.External

open Python Base64

/-! ## The standard alphabet -/

def base64Symbols : PyStr :=
  py "ABCDEFGHIJKLMNOPQRSTUVWXYZabcdefghijklmnopqrstuvwxyz0123456789+/"

def base64Symbol (sextet : Sextet) : CodePoint :=
  base64Symbols.getD sextet.val 0

def base64Value (c : CodePoint) : Option Sextet :=
  (List.finRange 64).find? fun sextet => base64Symbol sextet = c

def base64Alphabet : Alphabet CodePoint where
  symbol := base64Symbol
  pad := CodePoint.ofChar '='
  value := base64Value
  value_symbol := by decide +kernel
  symbol_ne_pad := by decide +kernel

/-- `base64.b64decode` of a text without validation; nothing for an error. -/
def b64decode (text : PyStr) : Option (List Byte) :=
  if text.all isAscii then decode base64Alphabet text else none

/-- The pads that complete the last group of four characters. -/
def missingPads (raw : PyStr) : PyStr :=
  List.replicate ((4 - raw.length % 4) % 4) (CodePoint.ofChar '=')

/-- `_snippet_from_zoekt_line`. -/
def snippetFromZoektLine (std : Stdlib) : Json → PyStr
  | .str cell =>
    let raw := strip cell
    if raw = [] then []
    else
      match b64decode (raw ++ missingPads raw) with
      | some bytes => utf8Replace bytes
      | none => cell
  | cell => if cell.truthy then str std cell else []

/-! ## What the decoder should do -/

def paddedCell (line : PyStr) : PyStr :=
  encode base64Alphabet (utf8 line)

def unpaddedCell (line : PyStr) : PyStr :=
  (paddedCell line).rdropWhile (· = CodePoint.ofChar '=')

/-- A character that no Base64 text has. -/
def HasForeignChar (cell : PyStr) : Prop :=
  ∃ c ∈ cell, c ≠ CodePoint.ofChar '=' ∧ base64Value c = none

/-- Encoded lines are decoded, and what cannot be an encoded line stays as it is. -/
def DecodedFaithfully (std : Stdlib) (cell : PyStr) : Prop :=
  (∀ line, Python.Encodable line → cell = paddedCell line ∨ cell = unpaddedCell line →
    snippetFromZoektLine std (.str cell) = line) ∧
  (HasForeignChar cell → snippetFromZoektLine std (.str cell) = cell)

/-- The text is not blank, and it has a character outside ASCII, or its characters of the
alphabet end inside a group of four that no pads complete. -/
def KeptAsText (cell : PyStr) : Prop :=
  strip cell ≠ [] ∧
    ((∃ c ∈ strip cell, isAscii c = false) ∨
      (dataCount base64Alphabet (strip cell) % 4 ≠ 0 ∧
        ¬ClosedByPads base64Alphabet (strip cell ++ missingPads (strip cell))))

/-! ## Encoded lines -/

theorem base64Symbol_plain :
    ∀ sextet, isSpace (base64Symbol sextet) = false ∧ isAscii (base64Symbol sextet) = true := by
  decide +kernel

theorem plain_paddedCell (line : PyStr) :
    ∀ c ∈ paddedCell line, isSpace c = false ∧ isAscii c = true :=
  forall_mem_encode base64Symbol_plain (by decide) _

theorem missingPads_append {body : PyStr} {pads : ℕ} (hpads : pads < 4)
    (hlength : 4 ∣ body.length + pads) :
    missingPads body = List.replicate pads (CodePoint.ofChar '=') := by
  rw [missingPads]
  congr 1
  omega

/-- The part of an encoded line before its pads. -/
theorem exists_paddedCell_eq (line : PyStr) :
    ∃ body, unpaddedCell line = body ∧ paddedCell line = body ++ missingPads body := by
  obtain ⟨body, pads, hencode, hbody, hpads, hlength⟩ :=
    @exists_encode_eq _ base64Alphabet (utf8 line)
  have hpad : base64Alphabet.pad = CodePoint.ofChar '=' := rfl
  rw [hpad, ← missingPads_append hpads hlength] at hencode
  refine ⟨body, ?_, hencode⟩
  rw [unpaddedCell, paddedCell, hencode, List.rdropWhile, List.reverse_append,
    List.dropWhile_append_of_pos, ← List.rdropWhile]
  · rw [List.rdropWhile_eq_self_iff]
    intro hne
    rw [decide_eq_true_eq]
    exact hbody _ (List.getLast_mem hne)
  · intro c hc
    rw [decide_eq_true_eq]
    exact List.eq_of_mem_replicate (List.mem_reverse.mp hc)

variable {line cell : PyStr} {std : Stdlib}

theorem snippet_eq (hcell : strip cell ≠ []) :
    snippetFromZoektLine std (.str cell) =
      match b64decode (strip cell ++ missingPads (strip cell)) with
      | some bytes => utf8Replace bytes
      | none => cell := by
  rw [snippetFromZoektLine]
  simp only [if_neg hcell]

theorem snippet_of_blank (hcell : strip cell = []) : snippetFromZoektLine std (.str cell) = [] := by
  rw [snippetFromZoektLine]
  simp only [if_pos hcell]

/-- Completing the pads of a cell gives the encoded line. -/
theorem snippet_of_encoded (hline : Encodable line) (hplain : ∀ c ∈ cell, isSpace c = false)
    (hcell : cell ++ missingPads cell = paddedCell line) :
    snippetFromZoektLine std (.str cell) = line := by
  have hstrip : strip cell = cell := stripBy_eq_self_of_forall hplain
  have hascii : (paddedCell line).all isAscii = true :=
    List.all_eq_true.mpr fun c hc => (plain_paddedCell line c hc).2
  by_cases hempty : cell = []
  · subst hempty
    have hbytes : encode base64Alphabet (utf8 line) = [] := hcell.symm
    have hutf8 : utf8 line = [] := by
      by_contra hne
      exact encode_ne_nil hne hbytes
    rw [snippet_of_blank rfl]
    by_contra hne
    exact utf8_ne_nil (Ne.symm hne) hutf8
  · rw [snippet_eq (hstrip.symm ▸ hempty), hstrip, hcell, b64decode, if_pos hascii, paddedCell,
      decode_encode]
    exact utf8Replace_utf8 hline

theorem snippet_paddedCell (hline : Encodable line) :
    snippetFromZoektLine std (.str (paddedCell line)) = line := by
  apply snippet_of_encoded hline fun c hc => (plain_paddedCell line c hc).1
  obtain ⟨body, -, hbody⟩ := exists_paddedCell_eq line
  have hnone : missingPads (paddedCell line) = [] := by
    have hwhole : (4 - (body.length + (4 - body.length % 4) % 4) % 4) % 4 = 0 := by omega
    rw [missingPads, hbody, missingPads, List.length_append, List.length_replicate, hwhole,
      List.replicate_zero]
  rw [hnone, List.append_nil]

theorem snippet_unpaddedCell (hline : Encodable line) :
    snippetFromZoektLine std (.str (unpaddedCell line)) = line := by
  obtain ⟨body, hunpadded, hpadded⟩ := exists_paddedCell_eq line
  rw [hunpadded]
  apply snippet_of_encoded hline _ hpadded.symm
  intro c hc
  exact (plain_paddedCell line c (hpadded ▸ List.mem_append_left _ hc)).1

/-! ## Plain lines -/

theorem dataCount_missingPads (raw : PyStr) :
    dataCount base64Alphabet (raw ++ missingPads raw) = dataCount base64Alphabet raw := by
  have hnone : dataCount base64Alphabet (missingPads raw) = 0 := by
    rw [dataCount, List.countP_eq_zero]
    intro c hc
    rw [List.eq_of_mem_replicate hc]
    exact Bool.eq_false_iff.mp isData_pad
  rw [dataCount, List.countP_append, ← dataCount, ← dataCount, hnone, Nat.add_zero]

theorem all_isAscii_missingPads (raw : PyStr) :
    (raw ++ missingPads raw).all isAscii = true ↔ ¬∃ c ∈ raw, isAscii c = false := by
  rw [List.all_append, Bool.and_eq_true, and_iff_left, List.all_eq_true]
  · simp
  · rw [List.all_eq_true]
    intro c hc
    rw [List.eq_of_mem_replicate hc]
    decide

theorem b64decode_eq_none_iff (raw : PyStr) :
    b64decode (raw ++ missingPads raw) = none ↔
      (∃ c ∈ raw, isAscii c = false) ∨ (dataCount base64Alphabet raw % 4 ≠ 0 ∧
        ¬ClosedByPads base64Alphabet (raw ++ missingPads raw)) := by
  rw [b64decode]
  split
  · next hascii =>
    rw [or_iff_right ((all_isAscii_missingPads raw).mp hascii), decode_eq_none_iff,
      dataCount_missingPads]
  · next hascii =>
    rw [all_isAscii_missingPads, not_not] at hascii
    exact iff_of_true rfl (.inl hascii)

/-- What is decoded gets shorter. -/
theorem length_lt_of_b64decode {raw : PyStr} (hraw : raw ≠ []) {bytes : List Byte}
    (hbytes : b64decode (raw ++ missingPads raw) = some bytes) :
    (utf8Replace bytes).length < raw.length := by
  rw [b64decode] at hbytes
  split at hbytes
  · have hbits := length_decodeFrom_le hbytes
    have hdata : dataCount base64Alphabet raw ≤ raw.length := List.countP_le_length
    have hpos : 0 < raw.length := List.length_pos_of_ne_nil hraw
    have htext := length_utf8Replace_le bytes
    rw [dataCount_missingPads, Quad.bits] at hbits
    omega
  · exact absurd hbytes (by simp)

theorem snippet_eq_self_iff (hcell : cell ≠ []) :
    snippetFromZoektLine std (.str cell) = cell ↔ KeptAsText cell := by
  rw [KeptAsText, ← b64decode_eq_none_iff]
  by_cases hblank : strip cell = []
  · rw [snippet_of_blank hblank]
    exact iff_of_false (Ne.symm hcell) fun hkept => hkept.1 hblank
  · rw [snippet_eq hblank, and_iff_right hblank]
    cases hdecoded : b64decode (strip cell ++ missingPads (strip cell)) with
    | none => exact iff_of_true rfl rfl
    | some bytes =>
      refine iff_of_false (fun heq => ?_) (by simp)
      have hshorter := length_lt_of_b64decode hblank hdecoded
      have hstrip : (strip cell).length ≤ cell.length := (stripBy_sublist _ _).length_le
      exact absurd (heq ▸ hshorter) (not_lt.mpr hstrip)

/-- Encoded lines are always decoded; a cell that cannot be one stays as it is exactly when the
lenient decoder has to reject it. -/
theorem decodedFaithfully_iff (std : Stdlib) (cell : PyStr) :
    DecodedFaithfully std cell ↔ (HasForeignChar cell → KeptAsText cell) := by
  have hencoded : ∀ line, Python.Encodable line →
      cell = paddedCell line ∨ cell = unpaddedCell line →
      snippetFromZoektLine std (.str cell) = line := by
    rintro line hline (rfl | rfl)
    · exact snippet_paddedCell hline
    · exact snippet_unpaddedCell hline
  rw [DecodedFaithfully, and_iff_right hencoded]
  apply forall_congr'
  rintro ⟨c, hc, -⟩
  exact snippet_eq_self_iff (List.ne_nil_of_mem hc)

/-- A line of source code turns into other text. -/
theorem source_line_is_decoded :
    HasForeignChar (py "get(x)") ∧
      snippetFromZoektLine asciiStdlib (.str (py "get(x)")) ≠ py "get(x)" ∧
      ¬DecodedFaithfully asciiStdlib (py "get(x)") := by
  have hforeign : HasForeignChar (py "get(x)") :=
    ⟨CodePoint.ofChar '(', by decide, by decide, by decide +kernel⟩
  have hchanged : snippetFromZoektLine asciiStdlib (.str (py "get(x)")) ≠ py "get(x)" := by
    decide +kernel
  exact ⟨hforeign, hchanged, fun hfaithful => hchanged (hfaithful.2 hforeign)⟩

end RootSeeker.External
