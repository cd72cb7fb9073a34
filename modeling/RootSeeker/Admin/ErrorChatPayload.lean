import RootSeeker.Core.WhileLoops
import RootSeeker.Python.JsonText
import RootSeeker.Storage.ChannelPayload

/-!
# The message to the model within its byte limit

The payload of an error chat is built from the error text and the flow result,
with less and less in it until its JSON encoding fits.  The last means is to
halve the error excerpt, and the note about what was cut off takes room itself.
-/

namespace RootSeeker.Admin

open Python Storage WhileLoops

/-- What the payload is built from: the error text, what is read out of it and of the flow
result, and the dumped case, report and first eight evidence items. -/
structure ErrorChat where
  content : PyStr
  exceptionSummary : PyStr
  callChain : List PyStr
  callerTrace : Option Fields
  case : Fields
  report : Fields
  evidence : List Fields
  /-- Validated texts have no unpaired surrogates, so the payload can be encoded. -/
  encodable : Encodable content ∧ Encodable exceptionSummary ∧
    (∀ call ∈ callChain, Encodable call) ∧ (∀ trace ∈ callerTrace, fieldsEncodable trace = true) ∧
    fieldsEncodable case = true ∧ fieldsEncodable report = true ∧
    ∀ item ∈ evidence, fieldsEncodable item = true

def truncationNote (omitted : ℕ) : PyStr :=
  py "\n...[truncated " ++ decimal omitted ++ py " chars]"

def truncateText (value : PyStr) (maxChars : ℕ) : PyStr :=
  if value.length ≤ maxChars then value
  else value.take maxChars ++ truncationNote (value.length - maxChars)

/-- `fields.get(key)`, where `None` stands for a missing key. -/
def readKey (fields : Fields) (key : String) : Json :=
  (fields.get? (py key)).getD .null

def compactStep (step : Fields) : Json :=
  .obj [
    (py "step_id", readKey step "step_id"),
    (py "name", readKey step "name"),
    (py "tool_name", readKey step "tool_name"),
    (py "status", readKey step "status")]

/-- `case.get("steps") or []`; only a list has steps. -/
def stepsOf (case : Fields) : List Json :=
  match case.get? (py "steps") with
  | some (.arr steps) => steps
  | _ => []

def compactCaseForLlm (std : Stdlib) (case : Fields) : Json :=
  .obj [
    (py "case_id", readKey case "case_id"),
    (py "title", readKey case "title"),
    (py "selected_skills", readKey case "selected_skills"),
    (py "symptom", .str (truncateText (truthyText std [case.get? (py "symptom")]) 4000)),
    (py "step_count", .int (stepsOf case).length),
    (py "steps", .arr (((stepsOf case).take 12).filterMap fun step =>
      match step with
      | .obj fields => some (compactStep fields)
      | _ => none))]

def rootCauseOf (report : Fields) : Fields :=
  match report.get? (py "root_cause") with
  | some (.obj rootCause) => rootCause
  | _ => []

def compactReportForLlm (std : Stdlib) (report : Fields) : Json :=
  let rootCause := rootCauseOf report
  .obj [
    (py "summary", .str (truncateText (truthyText std [report.get? (py "summary")]) 2000)),
    (py "root_cause", .obj [
      (py "title", readKey rootCause "title"),
      (py "narrative",
        .str (truncateText (truthyText std [rootCause.get? (py "narrative")]) 2000)),
      (py "confidence", readKey rootCause "confidence"),
      (py "contributing_factors", readKey rootCause "contributing_factors")]),
    (py "metadata", readKey report "metadata")]

def compactContent (std : Stdlib) (maxContentChars : ℕ) : Option Json → Json
  | some (.obj content) => .obj (content.map fun entry =>
    (entry.1, match entry.2 with
      | .str value => .str (truncateText value (maxContentChars / 2))
      | value => value))
  | content => .str (truncateText (truthyText std [content]) maxContentChars)

def compactEvidenceForLlm (std : Stdlib) (items : List Fields) (maxItems maxContentChars : ℕ) :
    Json :=
  .arr ((items.take maxItems).map fun item => .obj [
    (py "item_id", readKey item "item_id"),
    (py "type", readKey item "type"),
    (py "source", readKey item "source"),
    (py "content", compactContent std maxContentChars (item.get? (py "content")))])

namespace ErrorChat

variable (std : Stdlib) (byteLimit : ℤ) (chat : ErrorChat)

def callerTraceValue : Json :=
  match chat.callerTrace with
  | some trace => .obj trace
  | none => .null

/-- The payload of one turn over the evidence limits. -/
def payloadWith (errorLimit maxItems maxContentChars : ℕ) : Fields := [
  (py "exception_summary", .str chat.exceptionSummary),
  (py "call_chain", .arr (chat.callChain.map .str)),
  (py "caller_trace", chat.callerTraceValue),
  (py "error_excerpt", .str (truncateText chat.content errorLimit)),
  (py "case", compactCaseForLlm std chat.case),
  (py "report", compactReportForLlm std chat.report),
  (py "evidence_preview", compactEvidenceForLlm std chat.evidence maxItems maxContentChars)]

/-- The encoding of the payload has at most so many bytes. -/
def Fits (payload : Fields) : Prop :=
  (encodedSize std (.obj payload) : ℤ) ≤ byteLimit

instance (payload : Fields) : Decidable (Fits std byteLimit payload) :=
  inferInstanceAs (Decidable (_ ≤ _))

def firstErrorLimit : ℕ :=
  if chat.callChain = [] then 12000 else 6000

def evidenceLimits : List (ℕ × ℕ) := [(5, 2000), (3, 1000), (2, 500)]

/-- One turn over the evidence limits; an early return leaves as the error. -/
def evidenceTurn (state : Fields × ℕ) (limits : ℕ × ℕ) : Except Fields (Fields × ℕ) :=
  let payload := chat.payloadWith std state.2 limits.1 limits.2
  if Fits std byteLimit payload then .error payload
  else .ok (payload, max 2000 (state.2 / 2))

def truncationEntry (reason : String) : Json :=
  .obj [(py "reason", .str (py reason)), (py "byte_limit", .int byteLimit)]

def shortReport (maxChars : ℕ) : Json :=
  .obj [(py "summary",
    .str (truncateText (truthyText std [chat.report.get? (py "summary")]) maxChars))]

def shortCase : Json :=
  .obj [(py "case_id", readKey chat.case "case_id"), (py "title", readKey chat.case "title")]

def shrinkSteps : List (PyStr × Json) := [
  (py "evidence_preview", .arr []),
  (py "caller_trace", .null),
  (py "call_chain", .arr ((chat.callChain.take 3).map .str)),
  (py "call_chain", .arr []),
  (py "report", chat.shortReport std 500),
  (py "case", chat.shortCase)]

def setStep (payload : Fields) (step : PyStr × Json) : Fields :=
  payload.set step.1 step.2

def shrinkTurn (payload : Fields) (step : PyStr × Json) : Except Fields Fields :=
  if Fits std byteLimit payload then .error payload else .ok (setStep payload step)

/-- What happens before the excerpt is halved. -/
def beforeHalving : Except Fields Fields := do
  let (payload, _) ←
    evidenceLimits.foldlM (chat.evidenceTurn std byteLimit) ([], chat.firstErrorLimit)
  (chat.shrinkSteps std).foldlM (shrinkTurn std byteLimit)
    (payload.set (py "truncation") (truncationEntry byteLimit "payload_too_large"))

def excerptOf (payload : Fields) : PyStr :=
  match payload.get? (py "error_excerpt") with
  | some (.str excerpt) => excerpt
  | _ => []

def tooLong (state : Fields × PyStr) : Bool :=
  ¬Fits std byteLimit state.1 ∧ 200 < state.2.length

def halve (excerpt : PyStr) : PyStr :=
  truncateText excerpt (max 200 (excerpt.length / 2))

def halveExcerpt (state : Fields × PyStr) : Fields × PyStr :=
  (state.1.set (py "error_excerpt") (.str (halve state.2)), halve state.2)

def lastResort : Fields := [
  (py "exception_summary", .str (truncateText chat.exceptionSummary 500)),
  (py "error_excerpt", .str (truncateText chat.content 500)),
  (py "case", chat.shortCase),
  (py "report", chat.shortReport std 300),
  (py "truncation", truncationEntry byteLimit "payload_hard_truncated")]

/-- `_build_llm_error_chat_payload`, where the loop may take so many turns. -/
def buildPayload (turns : ℕ) : Option Fields :=
  match chat.beforeHalving std byteLimit with
  | .error payload => some payload
  | .ok payload =>
    (whileFor (tooLong std byteLimit) halveExcerpt turns (payload, excerptOf payload)).map
      fun state =>
        if Fits std byteLimit state.1 then state.1 else chat.lastResort std byteLimit

/-- The call returns, and within the limit where the last resort is. -/
def ReturnsWithinLimit : Prop :=
  ∃ turns payload, chat.buildPayload std byteLimit turns = some payload ∧
    (Fits std byteLimit (chat.lastResort std byteLimit) → Fits std byteLimit payload)

/-! ## When the loop is reached -/

def lastErrorLimit : ℕ :=
  if chat.callChain = [] then 3000 else 2000

/-- The payload after all shrinking steps, with this excerpt. -/
def shrunkPayload (excerpt : PyStr) : Fields := [
  (py "exception_summary", .str chat.exceptionSummary),
  (py "call_chain", .arr []),
  (py "caller_trace", .null),
  (py "error_excerpt", .str excerpt),
  (py "case", chat.shortCase),
  (py "report", chat.shortReport std 500),
  (py "evidence_preview", .arr []),
  (py "truncation", truncationEntry byteLimit "payload_too_large")]

/-- The payload after so many of the shrinking steps. -/
def afterSteps (count : ℕ) : Fields :=
  ((chat.shrinkSteps std).take count).foldl setStep
    ((chat.payloadWith std chat.lastErrorLimit 2 500).set (py "truncation")
      (truncationEntry byteLimit "payload_too_large"))

/-- The payloads that are tried before the excerpt is halved. -/
def firstPayloads : List Fields := [
  chat.payloadWith std chat.firstErrorLimit 5 2000,
  chat.payloadWith std (max 2000 (chat.firstErrorLimit / 2)) 3 1000,
  chat.payloadWith std chat.lastErrorLimit 2 500] ++
  (List.range 7).map (chat.afterSteps std byteLimit)

/-- The shortest excerpt that halving comes to: what is cut off a text of at most 209
characters is counted with one digit. -/
def shortestExcerpt (content : PyStr) : PyStr :=
  if content.length < 210 then truncateText content 200
  else content.take 200 ++ truncationNote 24

/-- One of the first payloads fits, the text has at most 200 characters, or the payload fits
with all that can be cut off the excerpt. -/
def SomePayloadFits : Prop :=
  (∃ payload ∈ chat.firstPayloads std byteLimit, Fits std byteLimit payload) ∨
    chat.content.length ≤ 200 ∨
    Fits std byteLimit (chat.shrunkPayload std byteLimit (shortestExcerpt chat.content))

/-- What the excerpt is before it is halved. -/
def firstExcerpt : PyStr :=
  truncateText chat.content chat.lastErrorLimit

/-- The shrinking steps stop at the first payload that fits. -/
theorem foldlM_shrinkTurn_cases (steps : List (PyStr × Json)) (payload : Fields) :
    (∃ count < steps.length,
      Fits std byteLimit ((steps.take count).foldl setStep payload) ∧
      steps.foldlM (shrinkTurn std byteLimit) payload =
        .error ((steps.take count).foldl setStep payload)) ∨
    (steps.foldlM (shrinkTurn std byteLimit) payload = .ok (steps.foldl setStep payload) ∧
      ∀ count < steps.length, ¬Fits std byteLimit ((steps.take count).foldl setStep payload)) := by
  induction steps generalizing payload with
  | nil => exact .inr ⟨rfl, fun _ hcount => absurd hcount (Nat.not_lt_zero _)⟩
  | cons step steps ih =>
    by_cases hfits : Fits std byteLimit payload
    · refine .inl ⟨0, Nat.succ_pos _, hfits, ?_⟩
      rw [List.foldlM_cons, shrinkTurn, if_pos hfits]
      rfl
    · have hstep : (step :: steps).foldlM (shrinkTurn std byteLimit) payload =
          steps.foldlM (shrinkTurn std byteLimit) (setStep payload step) := by
        rw [List.foldlM_cons, shrinkTurn, if_neg hfits]
        rfl
      rw [hstep]
      cases ih (setStep payload step) with
      | inl hstop =>
        obtain ⟨count, hcount, hstop⟩ := hstop
        exact .inl ⟨count + 1, Nat.succ_lt_succ hcount, hstop⟩
      | inr hnone =>
        refine .inr ⟨hnone.1, ?_⟩
        intro count hcount
        cases count with
        | zero => exact hfits
        | succ count => exact hnone.2 count (Nat.lt_of_succ_lt_succ hcount)

theorem lastErrorLimit_eq :
    max 2000 (max 2000 (chat.firstErrorLimit / 2) / 2) = chat.lastErrorLimit := by
  rw [firstErrorLimit, lastErrorLimit]
  split <;> rfl

theorem afterSteps_six :
    chat.afterSteps std byteLimit 6 = chat.shrunkPayload std byteLimit chat.firstExcerpt := rfl

theorem foldlM_evidenceTurn_cons (state : Fields × ℕ) (limits : ℕ × ℕ) (rest : List (ℕ × ℕ)) :
    (limits :: rest).foldlM (chat.evidenceTurn std byteLimit) state =
      let payload := chat.payloadWith std state.2 limits.1 limits.2
      if Fits std byteLimit payload then .error payload
      else rest.foldlM (chat.evidenceTurn std byteLimit) (payload, max 2000 (state.2 / 2)) := by
  rw [List.foldlM_cons, evidenceTurn]
  by_cases hfits : Fits std byteLimit (chat.payloadWith std state.2 limits.1 limits.2)
  · simp only [if_pos hfits]
    rfl
  · simp only [if_neg hfits]
    rfl

/-- The turns over the evidence limits stop at the first payload that fits. -/
theorem foldlM_evidenceTurn :
    evidenceLimits.foldlM (chat.evidenceTurn std byteLimit) ([], chat.firstErrorLimit) =
      let first := chat.payloadWith std chat.firstErrorLimit 5 2000
      let second := chat.payloadWith std (max 2000 (chat.firstErrorLimit / 2)) 3 1000
      let third := chat.payloadWith std chat.lastErrorLimit 2 500
      if Fits std byteLimit first then .error first
      else if Fits std byteLimit second then .error second
      else if Fits std byteLimit third then .error third
      else .ok (third, max 2000 (chat.lastErrorLimit / 2)) := by
  simp only [← lastErrorLimit_eq, evidenceLimits, foldlM_evidenceTurn_cons]
  rfl

theorem mem_firstPayloads_of_step {count : ℕ} (hcount : count < 7) :
    chat.afterSteps std byteLimit count ∈ chat.firstPayloads std byteLimit :=
  List.mem_append_right _ (List.mem_map_of_mem (List.mem_range.mpr hcount))

/-- Either one of the first payloads is returned, or the loop starts and none of them fits
but, perhaps, the last. -/
theorem beforeHalving_cases :
    (∃ payload ∈ chat.firstPayloads std byteLimit, Fits std byteLimit payload ∧
      chat.beforeHalving std byteLimit = .error payload) ∨
    (chat.beforeHalving std byteLimit =
        .ok (chat.shrunkPayload std byteLimit chat.firstExcerpt) ∧
      ∀ payload ∈ chat.firstPayloads std byteLimit, Fits std byteLimit payload →
        payload = chat.shrunkPayload std byteLimit chat.firstExcerpt) := by
  rw [beforeHalving, foldlM_evidenceTurn]
  by_cases hfirst : Fits std byteLimit (chat.payloadWith std chat.firstErrorLimit 5 2000)
  · exact .inl ⟨_, List.mem_cons_self, hfirst, by rw [if_pos hfirst]; rfl⟩
  by_cases hsecond : Fits std byteLimit
      (chat.payloadWith std (max 2000 (chat.firstErrorLimit / 2)) 3 1000)
  · refine .inl ⟨_, List.mem_cons_of_mem _ List.mem_cons_self, hsecond, ?_⟩
    rw [if_neg hfirst, if_pos hsecond]
    rfl
  by_cases hthird : Fits std byteLimit (chat.payloadWith std chat.lastErrorLimit 2 500)
  · refine .inl ⟨_, List.mem_cons_of_mem _ (List.mem_cons_of_mem _ List.mem_cons_self), hthird, ?_⟩
    rw [if_neg hfirst, if_neg hsecond, if_pos hthird]
    rfl
  rw [if_neg hfirst, if_neg hsecond, if_neg hthird]
  cases foldlM_shrinkTurn_cases std byteLimit (chat.shrinkSteps std)
      ((chat.payloadWith std chat.lastErrorLimit 2 500).set (py "truncation")
        (truncationEntry byteLimit "payload_too_large")) with
  | inl hstop =>
    obtain ⟨count, hcount, hfits, hstop⟩ := hstop
    exact .inl ⟨_, chat.mem_firstPayloads_of_step std byteLimit (Nat.lt_succ_of_lt hcount),
      hfits, hstop⟩
  | inr hnone =>
    refine .inr ⟨hnone.1, ?_⟩
    intro payload hpayload hfits
    cases List.mem_append.mp hpayload with
    | inl hevidence =>
      simp only [List.mem_cons, List.not_mem_nil, or_false] at hevidence
      obtain rfl | rfl | rfl := hevidence
      · exact absurd hfits hfirst
      · exact absurd hfits hsecond
      · exact absurd hfits hthird
    | inr hshrunk =>
      obtain ⟨count, hcount, rfl⟩ := List.mem_map.mp hshrunk
      cases Nat.lt_or_ge count 6 with
      | inl hbefore => exact absurd hfits (hnone.2 count hbefore)
      | inr hlast =>
        obtain rfl : count = 6 := by
          have := List.mem_range.mp hcount
          omega
        exact chat.afterSteps_six std byteLimit

/-! ## Halving the excerpt -/

section Excerpt

theorem length_decimal_le_iff {n digits : ℕ} (hdigits : 0 < digits) :
    (decimal n).length ≤ digits ↔ n < 10 ^ digits := by
  rw [decimal, List.length_map, Nat.length_toDigits_le_iff (by decide) hdigits]

theorem two_le_length_decimal {n : ℕ} (hn : 10 ≤ n) : 2 ≤ (decimal n).length := by
  by_contra hshort
  have hone : (decimal n).length ≤ 1 := by omega
  rw [length_decimal_le_iff Nat.one_pos] at hone
  omega

/-- The digits of a number are few beside the number. -/
theorem length_decimal_le_half {n : ℕ} (hn : 2 ≤ n) : (decimal n).length ≤ n / 2 := by
  rw [length_decimal_le_iff (by omega)]
  have htwo : n / 2 < 2 ^ (n / 2) := Nat.lt_two_pow_self
  have hfour : 2 * 2 ^ (n / 2) ≤ 10 ^ (n / 2) := by
    calc 2 * 2 ^ (n / 2) ≤ 5 ^ (n / 2) * 2 ^ (n / 2) := by
          apply Nat.mul_le_mul_right
          calc 2 ≤ 5 ^ 1 := by decide
            _ ≤ 5 ^ (n / 2) := Nat.pow_le_pow_right (by decide) (by omega)
      _ = 10 ^ (n / 2) := by rw [← Nat.mul_pow]
  omega

theorem length_truncationNote (omitted : ℕ) :
    (truncationNote omitted).length = (decimal omitted).length + 22 := by
  have hbefore : (py "\n...[truncated ").length = 15 := by decide
  have hafter : (py " chars]").length = 7 := by decide
  rw [truncationNote, List.length_append, List.length_append, hbefore, hafter]
  omega

theorem literalSize_truncationNote (omitted : ℕ) :
    literalSize (truncationNote omitted) = (decimal omitted).length + 23 := by
  have hbefore : literalSize (py "\n...[truncated ") = 16 := by decide
  have hafter : literalSize (py " chars]") = 7 := by decide
  rw [truncationNote, literalSize_append, literalSize_append, hbefore, hafter,
    literalSize_of_isDigit isDigit_of_mem_decimal]
  omega

theorem literalSize_take_le (text : PyStr) {shorter longer : ℕ} (hle : shorter ≤ longer) :
    literalSize (text.take shorter) ≤ literalSize (text.take longer) := by
  have hsplit : text.take longer = text.take shorter ++ (text.take longer).drop shorter := by
    conv_lhs => rw [← List.take_append_drop shorter (text.take longer)]
    rw [List.take_take, Nat.min_eq_left hle]
  rw [hsplit, literalSize_append]
  exact Nat.le_add_right _ _

/-- How many characters halving keeps. -/
def keptLength (excerpt : PyStr) : ℕ :=
  max 200 (excerpt.length / 2)

variable {excerpt : PyStr}

theorem halve_eq (hlong : 200 < excerpt.length) :
    halve excerpt = excerpt.take (keptLength excerpt) ++
      truncationNote (excerpt.length - keptLength excerpt) := by
  have hkept : ¬excerpt.length ≤ max 200 (excerpt.length / 2) := by omega
  rw [halve, truncateText, if_neg hkept]
  rfl

theorem length_halve (hlong : 200 < excerpt.length) :
    (halve excerpt).length = keptLength excerpt +
      (decimal (excerpt.length - keptLength excerpt)).length + 22 := by
  have hkept : keptLength excerpt ≤ excerpt.length := by
    rw [keptLength]
    omega
  rw [halve_eq hlong, List.length_append, List.length_take, length_truncationNote,
    Nat.min_eq_left hkept, Nat.add_assoc]

/-- Halving keeps the first 200 characters. -/
theorem take_halve (hlong : 200 < excerpt.length) :
    (halve excerpt).take 200 = excerpt.take 200 := by
  have hkept : 200 ≤ keptLength excerpt := Nat.le_max_left _ _
  have hlength : 200 ≤ (excerpt.take (keptLength excerpt)).length := by
    rw [List.length_take]
    omega
  rw [halve_eq hlong, List.take_append_of_le_length hlength, List.take_take, Nat.min_eq_left hkept]

/-- The text at which halving comes to rest. -/
def restingExcerpt (text : PyStr) : PyStr :=
  text.take 200 ++ truncationNote 24

theorem literalSize_resting_le (hlong : 210 ≤ excerpt.length) :
    literalSize (restingExcerpt excerpt) ≤ literalSize (halve excerpt) := by
  have hkept : literalSize (excerpt.take 200) ≤ literalSize (excerpt.take (keptLength excerpt)) :=
    literalSize_take_le excerpt (Nat.le_max_left _ _)
  have hdigits : 2 ≤ (decimal (excerpt.length - keptLength excerpt)).length := by
    apply two_le_length_decimal
    rw [keptLength]
    omega
  have hrest : (decimal 24).length = 2 := by decide
  rw [restingExcerpt, halve_eq (by omega), literalSize_append, literalSize_append,
    literalSize_truncationNote, literalSize_truncationNote, hrest]
  omega

/-- How far an excerpt is from the one at which halving comes to rest. -/
def distance (excerpt : PyStr) : ℕ :=
  if excerpt = restingExcerpt excerpt then 0
  else if excerpt.length = 224 then 1
  else if excerpt.length < 300 then 2
  else excerpt.length

theorem restingExcerpt_halve (hlong : 200 < excerpt.length) :
    restingExcerpt (halve excerpt) = restingExcerpt excerpt := by
  rw [restingExcerpt, take_halve hlong, restingExcerpt]

theorem distance_le (excerpt : PyStr) : distance excerpt ≤ max 2 excerpt.length := by
  rw [distance]
  split
  · omega
  · split
    · omega
    · split <;> omega

theorem distance_le_one (hlength : excerpt.length = 224) : distance excerpt ≤ 1 := by
  rw [distance]
  split
  · omega
  · exact Nat.le_refl 1

theorem distance_halve_lt (hlong : 210 ≤ excerpt.length)
    (hmoves : excerpt ≠ restingExcerpt excerpt) : distance (halve excerpt) < distance excerpt := by
  have hlong' : 200 < excerpt.length := by omega
  have hlength := length_halve hlong'
  have hdistance : distance excerpt = if excerpt.length = 224 then 1
      else if excerpt.length < 300 then 2 else excerpt.length := by
    rw [distance, if_neg hmoves]
  rw [hdistance]
  split
  · next hrests =>
    have hkept : keptLength excerpt = 200 := by
      rw [keptLength]
      omega
    have hhalve : halve excerpt = restingExcerpt (halve excerpt) := by
      rw [restingExcerpt_halve hlong', halve_eq hlong', hkept, hrests]
      rfl
    rw [distance, if_pos hhalve]
    exact Nat.one_pos
  · split
    · next hshort =>
      have hkept : keptLength excerpt = 200 := by
        rw [keptLength]
        omega
      have htwo : (decimal (excerpt.length - 200)).length = 2 := by
        apply Nat.le_antisymm _ (two_le_length_decimal (by omega))
        rw [length_decimal_le_iff (by decide)]
        omega
      rw [hkept, htwo] at hlength
      exact Nat.lt_succ_of_le (distance_le_one hlength)
    · have hkept : 100 ≤ excerpt.length - keptLength excerpt := by
        rw [keptLength]
        omega
      have hdigits := length_decimal_le_half (Nat.le_trans (by decide) hkept)
      have hafter := distance_le (halve excerpt)
      omega

end Excerpt

/-! ## Whether the loop ends -/

/-- A longer literal takes as many bytes more in the payload. -/
theorem encodedSize_shrunkPayload_add (excerpt other : PyStr) :
    encodedSize std (.obj (chat.shrunkPayload std byteLimit excerpt)) + literalSize other =
      encodedSize std (.obj (chat.shrunkPayload std byteLimit other)) + literalSize excerpt := by
  have hne : ∀ text, chat.shrunkPayload std byteLimit text ≠ [] :=
    fun _ => List.cons_ne_nil _ _
  rw [encodedSize_obj std (hne excerpt), encodedSize_obj std (hne other)]
  simp only [shrunkPayload, List.map_cons, List.sum_cons, fieldSize, encodedSize_str]
  omega

theorem fits_shrunkPayload_of_le {excerpt other : PyStr}
    (hle : literalSize excerpt ≤ literalSize other)
    (hfits : Fits std byteLimit (chat.shrunkPayload std byteLimit other)) :
    Fits std byteLimit (chat.shrunkPayload std byteLimit excerpt) := by
  have hsize := chat.encodedSize_shrunkPayload_add std byteLimit excerpt other
  rw [Fits] at hfits ⊢
  omega

theorem halveExcerpt_shrunkPayload (excerpt : PyStr) :
    halveExcerpt (chat.shrunkPayload std byteLimit excerpt, excerpt) =
      (chat.shrunkPayload std byteLimit (halve excerpt), halve excerpt) := rfl

theorem tooLong_shrunkPayload (excerpt : PyStr) :
    tooLong std byteLimit (chat.shrunkPayload std byteLimit excerpt, excerpt) = true ↔
      ¬Fits std byteLimit (chat.shrunkPayload std byteLimit excerpt) ∧ 200 < excerpt.length := by
  simp [tooLong]

/-- The loop over excerpts from here on ends. -/
def LoopEnds (excerpt : PyStr) : Prop :=
  ∃ final, Ends (tooLong std byteLimit) halveExcerpt
    (chat.shrunkPayload std byteLimit excerpt, excerpt) final

theorem loopEnds_of_stop {excerpt : PyStr}
    (hstop : Fits std byteLimit (chat.shrunkPayload std byteLimit excerpt) ∨
      excerpt.length ≤ 200) : chat.LoopEnds std byteLimit excerpt := by
  refine ⟨_, ends_of_stop (Bool.eq_false_of_not_eq_true ?_)⟩
  rw [tooLong_shrunkPayload]
  rintro ⟨hlarge, hlong⟩
  exact hstop.elim hlarge (not_le.mpr hlong)

theorem loopEnds_halve_iff {excerpt : PyStr}
    (hlarge : ¬Fits std byteLimit (chat.shrunkPayload std byteLimit excerpt))
    (hlong : 200 < excerpt.length) :
    chat.LoopEnds std byteLimit excerpt ↔ chat.LoopEnds std byteLimit (halve excerpt) := by
  have hcontinues := (chat.tooLong_shrunkPayload std byteLimit excerpt).mpr ⟨hlarge, hlong⟩
  exact exists_congr fun final => ends_step_iff hcontinues

/-- A state the loop comes to from this excerpt. -/
structure ComesFrom (excerpt : PyStr) (state : Fields × PyStr) : Prop where
  payload_eq : state.1 = chat.shrunkPayload std byteLimit state.2
  long : 210 ≤ state.2.length
  resting_eq : restingExcerpt state.2 = restingExcerpt excerpt

variable {std byteLimit chat}

theorem ComesFrom.halveExcerpt {excerpt : PyStr} {state : Fields × PyStr}
    (hstate : ComesFrom std byteLimit chat excerpt state) :
    ComesFrom std byteLimit chat excerpt (halveExcerpt state) := by
  have hlong : 200 < state.2.length := Nat.lt_of_lt_of_le (by decide) hstate.long
  have hkept : 200 ≤ keptLength state.2 := Nat.le_max_left _ _
  have hlength : (halve state.2).length = _ := length_halve hlong
  have hnext : ErrorChat.halveExcerpt state =
      (chat.shrunkPayload std byteLimit (halve state.2), halve state.2) := by
    rw [← halveExcerpt_shrunkPayload, ← hstate.payload_eq]
  rw [hnext]
  exact ⟨rfl, by simp only [hlength]; omega, (restingExcerpt_halve hlong).trans hstate.resting_eq⟩

theorem ComesFrom.tooLong_iff {excerpt : PyStr} {state : Fields × PyStr}
    (hstate : ComesFrom std byteLimit chat excerpt state) :
    tooLong std byteLimit state = true ↔
      ¬Fits std byteLimit (chat.shrunkPayload std byteLimit state.2) := by
  have hlong : 200 < state.2.length := Nat.lt_of_lt_of_le (by decide) hstate.long
  rw [← hstate.payload_eq]
  simp [tooLong, hlong]

theorem loopEnds_of_resting {excerpt : PyStr} (hlong : 210 ≤ excerpt.length)
    (hfits : Fits std byteLimit (chat.shrunkPayload std byteLimit (restingExcerpt excerpt))) :
    chat.LoopEnds std byteLimit excerpt := by
  apply exists_ends_of_measure (ComesFrom std byteLimit chat excerpt) fun state =>
    distance state.2
  · exact ⟨rfl, hlong, rfl⟩
  · intro state hstate hcontinues
    have hlarge := hstate.tooLong_iff.mp hcontinues
    have hmoves : state.2 ≠ restingExcerpt state.2 := by
      intro hrests
      rw [hrests, hstate.resting_eq] at hlarge
      exact hlarge hfits
    exact ⟨hstate.halveExcerpt, distance_halve_lt hstate.long hmoves⟩

/-- Nothing that halving comes to is shorter than the excerpt at which it rests. -/
theorem not_loopEnds {excerpt : PyStr} (hlong : 210 ≤ excerpt.length)
    (hlarge : ¬Fits std byteLimit (chat.shrunkPayload std byteLimit excerpt))
    (hrest : ¬Fits std byteLimit (chat.shrunkPayload std byteLimit (restingExcerpt excerpt))) :
    ¬chat.LoopEnds std byteLimit excerpt := by
  have hkeep : ∀ state, (ComesFrom std byteLimit chat excerpt state ∧
      ¬Fits std byteLimit (chat.shrunkPayload std byteLimit state.2)) →
      tooLong std byteLimit state = true ∧
        (ComesFrom std byteLimit chat excerpt (halveExcerpt state) ∧
          ¬Fits std byteLimit (chat.shrunkPayload std byteLimit (halveExcerpt state).2)) := by
    rintro state ⟨hstate, hlarge⟩
    refine ⟨hstate.tooLong_iff.mpr hlarge, hstate.halveExcerpt, ?_⟩
    intro hfits
    apply hrest
    rw [← hstate.resting_eq]
    exact chat.fits_shrunkPayload_of_le std byteLimit (literalSize_resting_le hstate.long) hfits
  rintro ⟨final, hends⟩
  exact not_ends_of_invariant _ ⟨⟨rfl, hlong, rfl⟩, hlarge⟩ hkeep final hends

theorem lastErrorLimit_ge (chat : ErrorChat) : 2000 ≤ chat.lastErrorLimit := by
  rw [lastErrorLimit]
  split <;> decide

theorem firstExcerpt_of_short (hshort : chat.content.length < 210) :
    chat.firstExcerpt = chat.content := by
  have hlimit := chat.lastErrorLimit_ge
  rw [firstExcerpt, truncateText, if_pos (by omega)]

theorem firstExcerpt_of_long (hlong : 210 ≤ chat.content.length) :
    210 ≤ chat.firstExcerpt.length ∧
      restingExcerpt chat.firstExcerpt = restingExcerpt chat.content := by
  have hlimit := chat.lastErrorLimit_ge
  rw [firstExcerpt, truncateText]
  split
  · exact ⟨hlong, rfl⟩
  · have hlength : (chat.content.take chat.lastErrorLimit).length = chat.lastErrorLimit := by
      rw [List.length_take]
      omega
    constructor
    · rw [List.length_append]
      omega
    · rw [restingExcerpt, List.take_append_of_le_length (by omega), List.take_take,
        Nat.min_eq_left (by omega), restingExcerpt]

/-- A text of 201 to 209 characters is cut once, and shorter than anything after that. -/
theorem halve_of_short (hlong : 200 < chat.content.length) (hshort : chat.content.length < 210) :
    halve chat.content = shortestExcerpt chat.content ∧
      literalSize (halve chat.content) ≤ literalSize (restingExcerpt (halve chat.content)) := by
  have hkept : keptLength chat.content = 200 := by
    rw [keptLength]
    omega
  have hdigits : (decimal (chat.content.length - 200)).length ≤ 1 := by
    rw [length_decimal_le_iff Nat.one_pos]
    omega
  rw [restingExcerpt_halve hlong, halve_eq hlong, hkept]
  constructor
  · rw [shortestExcerpt, if_pos hshort, truncateText, if_neg (not_le.mpr hlong)]
  · rw [restingExcerpt, literalSize_append, literalSize_append, literalSize_truncationNote,
      literalSize_truncationNote]
    have hrest : (decimal 24).length = 2 := by decide
    omega

theorem loopEnds_firstExcerpt_iff :
    chat.LoopEnds std byteLimit chat.firstExcerpt ↔
      Fits std byteLimit (chat.shrunkPayload std byteLimit chat.firstExcerpt) ∨
        chat.content.length ≤ 200 ∨
        Fits std byteLimit (chat.shrunkPayload std byteLimit (shortestExcerpt chat.content)) := by
  by_cases hfirst : Fits std byteLimit (chat.shrunkPayload std byteLimit chat.firstExcerpt)
  · exact iff_of_true (chat.loopEnds_of_stop std byteLimit (.inl hfirst)) (.inl hfirst)
  by_cases hshort : chat.content.length ≤ 200
  · have hsame : chat.firstExcerpt = chat.content := firstExcerpt_of_short (by omega)
    exact iff_of_true (chat.loopEnds_of_stop std byteLimit (.inr (hsame ▸ hshort)))
      (.inr (.inl hshort))
  rw [or_iff_right hfirst, or_iff_right hshort]
  have hlong : 200 < chat.content.length := not_le.mp hshort
  cases Nat.lt_or_ge chat.content.length 210 with
  | inl hcut =>
    obtain ⟨hshortest, hle⟩ := halve_of_short hlong hcut
    rw [firstExcerpt_of_short hcut] at hfirst ⊢
    rw [chat.loopEnds_halve_iff std byteLimit hfirst hlong, ← hshortest]
    constructor
    · intro hends
      by_contra hlarge
      have hlength : 210 ≤ (halve chat.content).length := by
        have hkept : 200 ≤ keptLength chat.content := Nat.le_max_left _ _
        rw [length_halve hlong]
        omega
      exact not_loopEnds hlength hlarge
        (fun hfits => hlarge (chat.fits_shrunkPayload_of_le std byteLimit hle hfits)) hends
    · exact fun hfits => chat.loopEnds_of_stop std byteLimit (.inl hfits)
  | inr hkeep =>
    obtain ⟨hlength, hresting⟩ := firstExcerpt_of_long hkeep
    have hshortest : shortestExcerpt chat.content = restingExcerpt chat.firstExcerpt := by
      rw [shortestExcerpt, if_neg (not_lt.mpr hkeep), hresting, restingExcerpt]
    rw [hshortest]
    constructor
    · intro hends
      by_contra hlarge
      exact not_loopEnds hlength hfirst hlarge hends
    · exact loopEnds_of_resting hlength

theorem buildPayload_of_error {payload : Fields}
    (herror : chat.beforeHalving std byteLimit = .error payload) (turns : ℕ) :
    chat.buildPayload std byteLimit turns = some payload := by
  rw [buildPayload, herror]

theorem buildPayload_of_ok (hstarts : chat.beforeHalving std byteLimit =
      .ok (chat.shrunkPayload std byteLimit chat.firstExcerpt)) (turns : ℕ) :
    chat.buildPayload std byteLimit turns =
      (whileFor (tooLong std byteLimit) halveExcerpt turns
        (chat.shrunkPayload std byteLimit chat.firstExcerpt, chat.firstExcerpt)).map fun state =>
          if Fits std byteLimit state.1 then state.1 else chat.lastResort std byteLimit := by
  have hexcerpt : excerptOf (chat.shrunkPayload std byteLimit chat.firstExcerpt) =
      chat.firstExcerpt := rfl
  rw [buildPayload, hstarts, ← hexcerpt]
  rfl

/-- Where the loop starts, the call returns exactly when the loop ends. -/
theorem returnsWithinLimit_iff_loopEnds (hstarts : chat.beforeHalving std byteLimit =
      .ok (chat.shrunkPayload std byteLimit chat.firstExcerpt)) :
    chat.ReturnsWithinLimit std byteLimit ↔ chat.LoopEnds std byteLimit chat.firstExcerpt := by
  constructor
  · rintro ⟨turns, payload, hpayload, _⟩
    rw [buildPayload_of_ok hstarts] at hpayload
    obtain ⟨final, hfinal, _⟩ := Option.map_eq_some_iff.mp hpayload
    exact ⟨final, turns, hfinal⟩
  · rintro ⟨final, turns, hfinal⟩
    refine ⟨turns, _, by rw [buildPayload_of_ok hstarts, hfinal]; rfl, ?_⟩
    intro hlast
    by_cases hfits : Fits std byteLimit final.1
    · simpa only [if_pos hfits] using hfits
    · simpa only [if_neg hfits] using hlast

/-- An error text of 201 characters, and nothing else. -/
def shortChat : ErrorChat where
  content := List.replicate 201 (CodePoint.ofChar 'x')
  exceptionSummary := []
  callChain := []
  callerTrace := none
  case := []
  report := []
  evidence := []
  encodable := by decide +kernel

end ErrorChat

end RootSeeker.Admin
