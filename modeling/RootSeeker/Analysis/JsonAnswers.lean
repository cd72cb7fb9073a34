import RootSeeker.Analysis.LlmContent
import RootSeeker.Python.JsonGrammar

/-!
# Answers in JSON

The readers of a model's answer try the whole text, and then the object that
they find in it.  Two of them take what stands between the first and the last
brace; the third stops where as many braces are closed as were opened, and counts
the braces in strings as well.
-/

namespace RootSeeker.Analysis

open Python Contracts Brackets

/-! ## The readers -/

/-- `json.loads` of a candidate, if it gives an object; only `JSONDecodeError` is
caught. -/
def readCandidate (std : Stdlib) (nesting : ℕ) (candidate : PyStr) :
    Except LoadsError (Option Fields) :=
  if candidate = [] then .ok none
  else
    match loads std nesting candidate with
    | .ok (.obj fields) => .ok (some fields)
    | .ok _ => .ok none
    | .error .decodeError => .ok none
    | .error error => .error error

/-- What the readers share, up to how they find the object in a text. -/
def readAnswer (std : Stdlib) (nesting : ℕ) (find : PyStr → Option PyStr)
    (content : PyStr) : Except LoadsError (Option Fields) :=
  let text := stripCodeFence (strip content)
  match readCandidate std nesting text with
  | .error error => .error error
  | .ok (some fields) => .ok (some fields)
  | .ok none => readCandidate std nesting ((find text).getD [])

/-- The text up to the closing brace that closes the last open one. -/
def takeObject : ℤ → PyStr → Option PyStr
  | _, [] => none
  | depth, c :: rest =>
    if c = openBrace then (takeObject (depth + 1) rest).map (c :: ·)
    else if c = closeBrace then
      if depth - 1 = 0 then some [c] else (takeObject (depth - 1) rest).map (c :: ·)
    else (takeObject depth rest).map (c :: ·)

/-- `_first_json_object` of the step-argument planner. -/
def countJsonObject (text : PyStr) : Option PyStr :=
  takeObject 0 (text.dropWhile (· ≠ openBrace))

/-- `_parse_json_object` of the tool planner. -/
def readToolPlan (std : Stdlib) (nesting : ℕ) (content : PyStr) :
    Except LoadsError (Option Fields) :=
  readAnswer std nesting firstJsonObject content

/-- `_parse_json_object` of the step-argument planner. -/
def readStepArguments (std : Stdlib) (nesting : ℕ) (content : PyStr) :
    Except LoadsError (Option Fields) :=
  readAnswer std nesting countJsonObject content

/-- `parse_llm_report_content`. -/
def readLlmReport (std : Stdlib) (nesting : ℕ) (content : PyStr) :
    Except LoadsError (Option Fields) :=
  readAnswer std nesting firstJsonObject content

/-! ## Texts around an object -/

/-- The text has no brace. -/
def Braceless (text : PyStr) : Prop :=
  ∀ c ∈ text, c ≠ openBrace ∧ c ≠ closeBrace

/-- The text stands in the whole, with no brace around it. -/
def StandsIn (text whole : PyStr) : Prop :=
  ∃ before after, Braceless before ∧ Braceless after ∧ whole = before ++ (text ++ after)

/-- The text between two braces. -/
def braced (body : PyStr) : PyStr :=
  openBrace :: (body ++ [closeBrace])

theorem Braceless.sublist {part text : PyStr} (htext : Braceless text)
    (hpart : part.Sublist text) : Braceless part :=
  fun c hc => htext c (hpart.subset hc)

theorem dropWhile_append_cons {drop : CodePoint → Bool} (before : PyStr) {c : CodePoint}
    (hc : drop c = false) (rest : PyStr) :
    (before ++ c :: rest).dropWhile drop = before.dropWhile drop ++ c :: rest := by
  induction before with
  | nil => exact List.dropWhile_cons_of_neg (by simp [hc])
  | cons d before ih =>
    cases hd : drop d with
    | true =>
      rw [List.cons_append, List.dropWhile_cons_of_pos hd, List.dropWhile_cons_of_pos hd, ih]
    | false =>
      rw [List.cons_append, List.dropWhile_cons_of_neg (by simp [hd]),
        List.dropWhile_cons_of_neg (by simp [hd])]
      rfl

theorem rdropWhile_append_cons {drop : CodePoint → Bool} (before : PyStr) {c : CodePoint}
    (hc : drop c = false) (after : PyStr) :
    (before ++ c :: after).rdropWhile drop = before ++ c :: after.rdropWhile drop := by
  have hreverse : (before ++ c :: after).reverse = after.reverse ++ c :: before.reverse := by
    simp
  rw [List.rdropWhile, hreverse, dropWhile_append_cons _ hc]
  simp [List.rdropWhile]

namespace StandsIn

variable {body whole : PyStr}

theorem dropWhile {drop : CodePoint → Bool} (hdrop : drop openBrace = false)
    (hstands : StandsIn (braced body) whole) : StandsIn (braced body) (whole.dropWhile drop) := by
  obtain ⟨before, after, hbefore, hafter, rfl⟩ := hstands
  exact ⟨before.dropWhile drop, after, hbefore.sublist (List.dropWhile_sublist drop), hafter,
    dropWhile_append_cons before hdrop _⟩

theorem rdropWhile {drop : CodePoint → Bool} (hdrop : drop closeBrace = false)
    (hstands : StandsIn (braced body) whole) : StandsIn (braced body) (whole.rdropWhile drop) := by
  obtain ⟨before, after, hbefore, hafter, rfl⟩ := hstands
  refine ⟨before, after.rdropWhile drop, hbefore,
    hafter.sublist (List.rdropWhile_prefix drop _).sublist, ?_⟩
  have hshape : ∀ after : PyStr, before ++ (braced body ++ after) =
      (before ++ openBrace :: body) ++ closeBrace :: after := by
    simp [braced]
  rw [hshape, hshape, rdropWhile_append_cons _ hdrop]

theorem strip (hstands : StandsIn (braced body) whole) :
    StandsIn (braced body) (Python.strip whole) :=
  (hstands.dropWhile (by decide)).rdropWhile (by decide)

/-- What is taken off the front without a brace is taken from the text before. -/
theorem drop {count : ℕ} (htaken : openBrace ∉ whole.take count)
    (hstands : StandsIn (braced body) whole) : StandsIn (braced body) (whole.drop count) := by
  obtain ⟨before, after, hbefore, hafter, rfl⟩ := hstands
  have hcount : count ≤ before.length := by
    by_contra hlong
    apply htaken
    obtain ⟨more, hmore⟩ := Nat.exists_eq_add_of_lt (not_le.mp hlong)
    have htake : (before ++ (braced body ++ after)).take count =
        before ++ (braced body ++ after).take (more + 1) := by
      rw [hmore, add_assoc, List.take_length_add_append]
    rw [htake]
    exact List.mem_append_right _ List.mem_cons_self
  refine ⟨before.drop count, after, hbefore.sublist (List.drop_sublist count before), hafter, ?_⟩
  exact List.drop_append_of_le_length hcount

theorem take {count : ℕ} (htaken : closeBrace ∉ whole.drop count)
    (hstands : StandsIn (braced body) whole) : StandsIn (braced body) (whole.take count) := by
  obtain ⟨before, after, hbefore, hafter, rfl⟩ := hstands
  have hshape : before ++ (braced body ++ after) = (before ++ braced body) ++ after :=
    (List.append_assoc _ _ _).symm
  rw [hshape] at htaken ⊢
  have hcount : (before ++ braced body).length ≤ count := by
    by_contra hshort
    apply htaken
    have hlast : before ++ braced body = (before ++ openBrace :: body) ++ [closeBrace] := by
      simp [braced]
    rw [hlast] at hshort ⊢
    rw [List.length_append, List.length_singleton] at hshort
    rw [List.append_assoc, List.drop_append_of_le_length (by omega)]
    exact List.mem_append_right _ List.mem_cons_self
  obtain ⟨more, rfl⟩ := Nat.exists_eq_add_of_le hcount
  refine ⟨before, after.take more, hbefore, hafter.sublist (List.take_sublist more after), ?_⟩
  rw [List.take_length_add_append, List.append_assoc]

theorem dropJsonWord (hstands : StandsIn (braced body) whole) :
    StandsIn (braced body) (Analysis.dropJsonWord whole) := by
  unfold Analysis.dropJsonWord
  split
  · exact hstands
  · rename_i hlength
    split
    · rename_i hletters
      apply hstands.drop
      intro hbrace
      have hzip : whole.take 4 = (whole.zip jsonLetters).map Prod.fst := by
        rw [List.zip_eq_zip_take_min, show min whole.length jsonLetters.length = 4 from
          min_eq_right (not_lt.mp hlength), List.map_fst_zip]
        simp [jsonLetters]
      rw [hzip, List.mem_map] at hbrace
      obtain ⟨pair, hpair, heq⟩ := hbrace
      have hletter := List.all_eq_true.mp hletters pair hpair
      have hnone : jsonLetters.all (fun letters => openBrace ∉ letters) = true := by
        decide +kernel
      have habsent := List.all_eq_true.mp hnone pair.2 (List.of_mem_zip hpair).2
      rw [heq, decide_eq_true_eq] at hletter
      exact of_decide_eq_true habsent hletter
    · exact hstands

/-- The fences are taken from the texts around the object. -/
theorem stripCodeFence (hstands : StandsIn (braced body) whole) :
    StandsIn (braced body) (Analysis.stripCodeFence whole) := by
  have hfence : ∀ c ∈ fence, c ≠ openBrace ∧ c ≠ closeBrace := by
    simp only [fence]
    exact List.all_iff_forall_prop.mp (by decide +kernel)
  unfold Analysis.stripCodeFence
  split
  · rename_i hopening
    obtain ⟨rest, rfl⟩ := List.isPrefixOf_iff_prefix.mp hopening
    have hopened : StandsIn (braced body)
        ((Analysis.dropJsonWord ((fence ++ rest).drop 3)).dropWhile isSpace) := by
      apply StandsIn.dropWhile (by decide)
      apply StandsIn.dropJsonWord
      apply hstands.drop
      rw [show (fence ++ rest).take 3 = fence from List.take_left' rfl]
      exact fun hbrace => (hfence _ hbrace).1 rfl
    simp only
    split
    · rename_i hclosing
      obtain ⟨front, hfront⟩ := List.isSuffixOf_iff_suffix.mp hclosing
      apply StandsIn.strip
      apply StandsIn.rdropWhile (by decide)
      apply hopened.take
      rw [← hfront, List.length_append, show fence.length = 3 from rfl, Nat.add_sub_cancel,
        List.drop_left]
      exact fun hbrace => (hfence _ hbrace).2 rfl
    · exact hopened.strip
  · exact hstands

end StandsIn

/-- The text that the readers decode first. -/
def answerText (content : PyStr) : PyStr :=
  stripCodeFence (strip content)

theorem strip_answerText (content : PyStr) : strip (answerText content) = answerText content := by
  unfold answerText stripCodeFence
  split
  · exact stripBy_idem isSpace _
  · exact stripBy_idem isSpace content

theorem standsIn_answerText {body content : PyStr} (hstands : StandsIn (braced body) content) :
    StandsIn (braced body) (answerText content) :=
  hstands.strip.stripCodeFence

/-! ## The object in a text -/

theorem firstJsonObject_of_standsIn {body whole : PyStr}
    (hstands : StandsIn (braced body) whole) : firstJsonObject whole = some (braced body) := by
  obtain ⟨before, after, hbefore, hafter, rfl⟩ := hstands
  have hopened : (before ++ (braced body ++ after)).dropWhile
      (fun c => decide (c ≠ CodePoint.ofChar '{')) = braced body ++ after := by
    have hdrop := @dropWhile_append_cons (fun c => decide (c ≠ openBrace)) before openBrace
      (by simp) (body ++ [closeBrace] ++ after)
    have hnone : before.dropWhile (fun c => decide (c ≠ openBrace)) = [] := by
      rw [List.dropWhile_eq_nil_iff]
      exact fun c hc => decide_eq_true (hbefore c hc).1
    rw [hnone] at hdrop
    exact hdrop
  have hclosed : (braced body ++ after).rdropWhile
      (fun c => decide (c ≠ CodePoint.ofChar '}')) = braced body := by
    have hdrop := @rdropWhile_append_cons (fun c => decide (c ≠ closeBrace))
      (openBrace :: body) closeBrace (by simp) after
    have hnone : after.rdropWhile (fun c => decide (c ≠ closeBrace)) = [] := by
      rw [List.rdropWhile_eq_nil_iff]
      exact fun c hc => decide_eq_true (hafter c hc).2
    rw [hnone] at hdrop
    have hshape : braced body ++ after = openBrace :: body ++ closeBrace :: after := by
      simp [braced]
    rw [hshape]
    exact hdrop
  unfold firstJsonObject
  simp only [hopened, hclosed]
  rfl

/-- How many braces are open after the text. -/
def openAfter (depth : ℤ) (text : PyStr) : ℤ :=
  depth + text.count openBrace - text.count closeBrace

/-- All braces are closed at the end of the text, and not before. -/
def ClosesAtEnd (depth : ℤ) (text : PyStr) : Prop :=
  openAfter depth text = 0 ∧
    ∀ left right, text = left ++ right → right ≠ [] → 0 < openAfter depth left

theorem openAfter_cons (depth : ℤ) (c : CodePoint) (text : PyStr) :
    openAfter depth (c :: text) = openAfter (openAfter depth [c]) text := by
  simp only [openAfter, List.count_cons, List.count_nil]
  push_cast
  ring

theorem closesAtEnd_cons_iff {depth : ℤ} (hdepth : 0 < depth) (c : CodePoint) (text : PyStr) :
    ClosesAtEnd depth (c :: text) ↔ ClosesAtEnd (openAfter depth [c]) text := by
  unfold ClosesAtEnd
  rw [openAfter_cons]
  apply and_congr_right
  intro _
  constructor
  · intro hall left right hsplit hright
    rw [← openAfter_cons]
    exact hall (c :: left) right (by rw [hsplit]; rfl) hright
  · intro hall left right hsplit hright
    cases left with
    | nil => simpa [openAfter] using hdepth
    | cons d left =>
      obtain ⟨rfl, htext⟩ := List.cons.inj hsplit
      rw [openAfter_cons]
      exact hall left right htext hright

/-- The count takes exactly the text at whose end all braces are closed. -/
theorem takeObject_append_iff {depth : ℤ} (hdepth : 0 < depth) (text after : PyStr) :
    takeObject depth (text ++ after) = some text ↔ ClosesAtEnd depth text := by
  induction text generalizing depth with
  | nil =>
    refine iff_of_false ?_ fun hcloses => absurd hcloses.1 (by simp [openAfter, hdepth.ne'])
    cases after with
    | nil => simp [takeObject]
    | cons c after =>
      rw [List.nil_append, takeObject]
      split
      · simp
      · split
        · split <;> simp
        · simp
  | cons c text ih =>
    have hmap : ∀ found : Option PyStr,
        found.map (c :: ·) = some (c :: text) ↔ found = some text := by
      intro found
      cases found <;> simp
    rw [closesAtEnd_cons_iff hdepth, List.cons_append, takeObject]
    by_cases hopening : c = openBrace
    · have hafter : openAfter depth [c] = depth + 1 := by
        subst hopening
        simp [openAfter, show openBrace ≠ closeBrace by decide]
      rw [if_pos hopening, hmap, ih (by omega), hafter]
    · rw [if_neg hopening]
      by_cases hclosing : c = closeBrace
      · have hafter : openAfter depth [c] = depth - 1 := by
          subst hclosing
          simp [openAfter, show closeBrace ≠ openBrace by decide]
        rw [if_pos hclosing, hafter]
        by_cases hlast : depth - 1 = 0
        · rw [if_pos hlast, hlast]
          constructor
          · intro hfound
            obtain rfl : text = [] := by simpa using hfound.symm
            exact ⟨rfl, fun left right hsplit hright =>
              absurd (List.append_eq_nil_iff.mp hsplit.symm).2 hright⟩
          · intro hcloses
            cases text with
            | nil => rfl
            | cons d text =>
              have hstart := hcloses.2 [] (d :: text) rfl (List.cons_ne_nil d text)
              exact absurd hstart (by simp [openAfter])
        · rw [if_neg hlast, hmap, ih (by omega)]
      · have hafter : openAfter depth [c] = depth := by
          simp [openAfter, hopening, hclosing]
        rw [if_neg hclosing, hmap, ih hdepth, hafter]

theorem takeObject_eq_some {depth : ℤ} {text found : PyStr}
    (hfound : takeObject depth text = some found) :
    ∃ front rest, found = front ++ [closeBrace] ∧ text = found ++ rest := by
  induction text generalizing depth found with
  | nil => exact absurd hfound (by simp [takeObject])
  | cons c text ih =>
    have hmap : ∀ {depth : ℤ}, (takeObject depth text).map (c :: ·) = some found →
        ∃ front rest, found = front ++ [closeBrace] ∧ c :: text = found ++ rest := by
      intro depth hmap
      obtain ⟨inner, hinner, rfl⟩ := Option.map_eq_some_iff.mp hmap
      obtain ⟨front, rest, rfl, htext⟩ := ih hinner
      exact ⟨c :: front, rest, rfl, by rw [htext]; rfl⟩
    rw [takeObject] at hfound
    split at hfound
    · exact hmap hfound
    · split at hfound
      · rename_i hclosing
        split at hfound
        · rw [← Option.some.inj hfound, hclosing]
          exact ⟨[], text, rfl, rfl⟩
        · exact hmap hfound
      · exact hmap hfound

/-- What the count finds is the object or a part of it. -/
theorem countJsonObject_of_standsIn {body whole : PyStr} (hstands : StandsIn (braced body) whole) :
    (∀ found, countJsonObject whole = some found →
        ∃ rest, braced body = found ++ rest ∧ found ≠ []) ∧
      (countJsonObject whole = some (braced body) ↔ ClosesAtEnd 1 (body ++ [closeBrace])) := by
  obtain ⟨before, after, hbefore, hafter, rfl⟩ := hstands
  have hcount : countJsonObject (before ++ (braced body ++ after)) =
      (takeObject 1 ((body ++ [closeBrace]) ++ after)).map (openBrace :: ·) := by
    have hdrop := @dropWhile_append_cons (fun c => decide (c ≠ openBrace)) before openBrace
      (by simp) (body ++ [closeBrace] ++ after)
    have hnone : before.dropWhile (fun c => decide (c ≠ openBrace)) = [] := by
      rw [List.dropWhile_eq_nil_iff]
      exact fun c hc => decide_eq_true (hbefore c hc).1
    rw [hnone] at hdrop
    rw [countJsonObject]
    change takeObject 0 ((before ++ openBrace :: (body ++ [closeBrace] ++ after)).dropWhile _) = _
    rw [hdrop, List.nil_append, takeObject, if_pos rfl]
    rfl
  rw [hcount]
  constructor
  · intro found hfound
    obtain ⟨inner, hinner, rfl⟩ := Option.map_eq_some_iff.mp hfound
    obtain ⟨front, rest, rfl, htext⟩ := takeObject_eq_some hinner
    obtain ⟨more, hlonger, hmore⟩ | ⟨more, hwhole, _⟩ := List.append_eq_append_iff.mp htext
    · -- The text after the object has no closing brace at which the count could end.
      have hnone : more = [] := by
        by_contra hne
        obtain ⟨init, last, rfl⟩ := List.eq_nil_or_concat more |>.resolve_left hne
        rw [List.concat_eq_append, ← List.append_assoc] at hlonger
        have hlast : [closeBrace] = [last] := List.append_inj_right' hlonger rfl
        apply (hafter last _).2 (List.cons.inj hlast).1.symm
        rw [hmore]
        simp
      rw [hnone, List.append_nil] at hlonger
      exact ⟨[], by rw [hlonger, List.append_nil]; rfl, List.cons_ne_nil _ _⟩
    · exact ⟨more, by rw [braced, hwhole]; rfl, List.cons_ne_nil _ _⟩
  · rw [← takeObject_append_iff one_pos (body ++ [closeBrace]) after, braced]
    cases takeObject 1 (body ++ [closeBrace] ++ after) <;> simp

/-! ## Decoding the candidates -/

section Candidates

variable {std : Stdlib} {nesting : ℕ}

theorem loads_nil : loads std nesting [] = .error .decodeError := by
  cases nesting <;> rfl

theorem readCandidate_eq_some_iff {candidate : PyStr} {fields : Fields} :
    readCandidate std nesting candidate = .ok (some fields) ↔
      loads std nesting candidate = .ok (.obj fields) := by
  unfold readCandidate
  split
  · rename_i hempty
    rw [hempty, loads_nil]
    simp
  · split <;> simp_all

theorem readCandidate_eq_error_iff {candidate : PyStr} {error : LoadsError} :
    readCandidate std nesting candidate = .error error ↔
      loads std nesting candidate = .error error ∧ error ≠ .decodeError := by
  unfold readCandidate
  split
  · rename_i hempty
    rw [hempty, loads_nil]
    simp [eq_comm]
  · split <;> simp_all
    exact fun heq => heq ▸ by assumption

/-- An answer: an object in any serialisation, and texts without a brace around it. -/
structure Answer (std : Stdlib) where
  before : PyStr
  text : PyStr
  after : PyStr
  fields : Fields
  writes : Writes std text (.obj fields)
  braceless_before : Braceless before
  braceless_after : Braceless after

def Answer.content (answer : Answer std) : PyStr :=
  answer.before ++ (answer.text ++ answer.after)

theorem Answer.exists_braced (answer : Answer std) :
    ∃ body, answer.text = braced body ∧ StandsIn (braced body) answer.content := by
  obtain ⟨body, hbody⟩ := answer.writes.exists_body_obj
  refine ⟨body, hbody, answer.before, answer.after, answer.braceless_before,
    answer.braceless_after, ?_⟩
  rw [Answer.content, hbody]
  rfl

/-- The whole text is not read as an object, unless it is nothing but the object. -/
theorem loads_answerText_ne_obj {body content : PyStr} {fields : Fields}
    (hstands : StandsIn (braced body) content) (hmore : answerText content ≠ braced body) :
    loads std nesting (answerText content) ≠ .ok (.obj fields) := by
  intro hloads
  have hstripped := strip_answerText content
  have hhead := head_of_stripBy_eq_self hstripped
  have hlast := last_of_stripBy_eq_self hstripped
  obtain ⟨before, after, hbefore, hafter, hwhole⟩ := standsIn_answerText hstands
  rw [hwhole] at hloads hhead hlast hmore
  have hblank : ∀ c, isJsonBlank c = true → isSpace c = true := by
    intro c hc
    simp only [isJsonBlank, Bool.or_eq_true, decide_eq_true_eq] at hc
    simp only [isSpace, Bool.or_eq_true, Bool.and_eq_true, decide_eq_true_eq]
    omega
  cases before with
  | cons c before =>
    have hc : isJsonBlank c = false := by
      rw [Bool.eq_false_iff]
      exact fun hjson => absurd (hblank c hjson) (by simp [hhead c rfl])
    exact loads_ne_obj hc (hbefore c List.mem_cons_self).1 _ fields hloads
  | nil =>
    obtain ⟨used, blank, hused, hall⟩ := ends_of_loads_obj hloads
    obtain rfl | ⟨front, last, rfl⟩ := List.eq_nil_or_concat after
    · exact hmore (by simp)
    · -- The last character is no brace and no white space.
      have hlastSpace : isSpace last = false := hlast last (by simp)
      have hlastBrace : last ≠ closeBrace := (hafter last (by simp)).2
      obtain rfl | ⟨blanks, final, rfl⟩ := List.eq_nil_or_concat blank
      · have hends : (body ++ [closeBrace] ++ front) ++ [last] = used ++ [closeBrace] := by
          simpa using hused
        exact hlastBrace (List.cons.inj (List.append_inj_right' hends rfl)).1
      · have hends : (body ++ [closeBrace] ++ front) ++ [last] =
            (used ++ closeBrace :: blanks) ++ [final] := by
          simpa using hused
        have hsame : last = final := (List.cons.inj (List.append_inj_right' hends rfl)).1
        have hfinal : isSpace final = true := hblank final (hall final (by simp))
        rw [hsame, hfinal] at hlastSpace
        exact absurd hlastSpace (by simp)

/-- Decoding the text reaches none of the interpreter's limits. -/
def DecodesWithinLimits (std : Stdlib) (nesting : ℕ) (text : PyStr) : Prop :=
  ∀ error, loads std nesting text = .error error → error = .decodeError

/-- A reader returns the object that it finds in the text, or the whole text is. -/
theorem readAnswer_iff {find : PyStr → Option PyStr} {body content : PyStr} {fields : Fields}
    (hwrites : Writes std (braced body) (.obj fields)) (hstands : StandsIn (braced body) content) :
    readAnswer std nesting find content = .ok (some fields) ↔
      Readable nesting (.obj fields) ∧
        DecodesWithinLimits std nesting (answerText content) ∧
          (answerText content = braced body ∨
            loads std nesting ((find (answerText content)).getD []) = .ok (.obj fields)) := by
  have hread : readAnswer std nesting find content =
      match readCandidate std nesting (answerText content) with
      | .error error => .error error
      | .ok (some fields) => .ok (some fields)
      | .ok none => readCandidate std nesting ((find (answerText content)).getD []) := rfl
  rw [hread]
  by_cases hsame : answerText content = braced body
  · rw [hsame]
    constructor
    · intro hanswer
      have hreadable : Readable nesting (.obj fields) := by
        cases hfirst : readCandidate std nesting (braced body) with
        | error error => exact absurd (hfirst ▸ hanswer) (by simp)
        | ok found =>
          rw [hfirst] at hanswer
          cases found with
          | some other =>
            obtain rfl := Option.some.inj (Except.ok.inj hanswer)
            exact readable_of_loads (readCandidate_eq_some_iff.mp hfirst)
          | none => exact readable_of_loads (readCandidate_eq_some_iff.mp hanswer)
      refine ⟨hreadable, ?_, Or.inl rfl⟩
      intro error herror
      rw [hwrites.loads hreadable] at herror
      exact absurd herror (by simp)
    · intro ⟨hreadable, _, _⟩
      rw [readCandidate_eq_some_iff.mpr (hwrites.loads hreadable)]
  · cases hfirst : readCandidate std nesting (answerText content) with
    | error error =>
      obtain ⟨hloads, hlimit⟩ := readCandidate_eq_error_iff.mp hfirst
      exact iff_of_false (by simp) fun hboth => hlimit (hboth.2.1 error hloads)
    | ok found =>
      cases found with
      | some other =>
        have hloads := readCandidate_eq_some_iff.mp hfirst
        exact absurd hloads (loads_answerText_ne_obj hstands hsame)
      | none =>
        simp only [hsame, false_or, readCandidate_eq_some_iff]
        refine ⟨fun hloads => ⟨readable_of_loads hloads, ?_, hloads⟩, fun hboth => hboth.2.2⟩
        intro error herror
        by_contra hlimit
        have hfailed := readCandidate_eq_error_iff.mpr ⟨herror, hlimit⟩
        exact absurd (hfirst.symm.trans hfailed) (by simp)

end Candidates

/-! ## All three readers -/

/-- Every reader returns the object of the answer. -/
structure Recovered (std : Stdlib) (nesting : ℕ) (answer : Answer std) : Prop where
  toolPlan : readToolPlan std nesting answer.content = .ok (some answer.fields)
  stepArguments : readStepArguments std nesting answer.content = .ok (some answer.fields)
  llmReport : readLlmReport std nesting answer.content = .ok (some answer.fields)

/-- The object of an answer is recovered exactly when it is within the interpreter's
limits, decoding the whole text reaches none of them either, and there is nothing but a
fence around the object or its braces, those in strings included, are even at its end and
not before. -/
theorem answer_recovered_iff (std : Stdlib) (nesting : ℕ) (answer : Answer std) :
    Recovered std nesting answer ↔
      Readable nesting (.obj answer.fields) ∧
        DecodesWithinLimits std nesting (answerText answer.content) ∧
          (answerText answer.content = answer.text ∨ ClosesAtEnd 1 answer.text.tail) := by
  obtain ⟨body, htext, hstands⟩ := answer.exists_braced
  have hwrites : Writes std (braced body) (.obj answer.fields) := htext ▸ answer.writes
  have hwhole := standsIn_answerText hstands
  have hfirst : readAnswer std nesting firstJsonObject answer.content =
      .ok (some answer.fields) ↔ Readable nesting (.obj answer.fields) ∧
        DecodesWithinLimits std nesting (answerText answer.content) := by
    rw [readAnswer_iff hwrites hstands, firstJsonObject_of_standsIn hwhole, Option.getD_some]
    constructor
    · exact fun hboth => ⟨hboth.1, hboth.2.1⟩
    · exact fun hboth => ⟨hboth.1, hboth.2, Or.inr (hwrites.loads hboth.1)⟩
  have hcount : readAnswer std nesting countJsonObject answer.content =
      .ok (some answer.fields) ↔ Readable nesting (.obj answer.fields) ∧
        DecodesWithinLimits std nesting (answerText answer.content) ∧
          (answerText answer.content = answer.text ∨ ClosesAtEnd 1 answer.text.tail) := by
    rw [readAnswer_iff hwrites hstands, htext]
    apply and_congr_right
    intro hreadable
    apply and_congr_right
    intro _
    apply or_congr_right
    obtain ⟨hpart, hall⟩ := countJsonObject_of_standsIn hwhole
    rw [show (braced body).tail = body ++ [closeBrace] from rfl, ← hall]
    constructor
    · intro hloads
      cases hfound : countJsonObject (answerText answer.content) with
      | none =>
        rw [hfound, Option.getD_none, loads_nil] at hloads
        exact absurd hloads (by simp)
      | some found =>
        rw [hfound, Option.getD_some] at hloads
        obtain ⟨rest, hsplit, hne⟩ := hpart found hfound
        obtain rfl | hrest := eq_or_ne rest []
        · rw [hsplit, List.append_nil]
        · exfalso
          obtain ⟨c, part, rfl⟩ := List.exists_cons_of_ne_nil hne
          obtain ⟨rfl, htail⟩ := List.cons.inj hsplit
          have hbody : body = part ++ rest.dropLast := by
            have hdropped := congrArg List.dropLast htail
            rw [List.dropLast_concat] at hdropped
            exact hdropped.trans (List.dropLast_append_of_ne_nil hrest)
          have hbalanced := hwrites.balanced_obj hreadable
          rw [hbody] at hbalanced
          exact loads_ne_ok_of_prefix hbalanced _ hloads
    · intro hfound
      rw [hfound]
      exact hwrites.loads hreadable
  constructor
  · exact fun hrecovered => hcount.mp hrecovered.stepArguments
  · intro hboth
    have hshared := hfirst.mpr ⟨hboth.1, hboth.2.1⟩
    exact ⟨hshared, hcount.mpr hboth, hshared⟩

/-- A string with a closing brace, after a word of prose. -/
def bracedArgument : Answer asciiStdlib where
  before := py "Arguments: "
  text := py "\x7b\"pattern\":\"\x7d\"\x7d"
  after := []
  fields := [(py "pattern", .str (py "\x7d"))]
  writes :=
    @writes_single _ (py "pattern") _ _ (by decide)
      (Writes.str (StringBody.of_plain (by decide : (py "\x7d").all isPlainChar = true)))
  braceless_before := List.all_iff_forall_prop.mp (by decide +kernel)
  braceless_after := fun _ hc => absurd hc List.not_mem_nil

/-- The step-argument planner cuts the object at the brace in the string. -/
theorem brace_in_string_is_lost : ¬Recovered asciiStdlib 1 bracedArgument := by
  intro hrecovered
  have hfound := congrArg (fun outcome => outcome.toOption.map Option.isSome)
    hrecovered.stepArguments
  have hlost : (readStepArguments asciiStdlib 1 bracedArgument.content).toOption.map
      Option.isSome = some false := by
    decide +kernel
  rw [hlost] at hfound
  exact absurd hfound (by simp [Except.toOption])

end RootSeeker.Analysis
