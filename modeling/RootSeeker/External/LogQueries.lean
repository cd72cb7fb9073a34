import RootSeeker.Core.QuotedPhrases
import RootSeeker.Python.Repr

/-!
# Log queries

The log service reads a query as fields with phrases. A quote ends a phrase unless a backslash
stands before it.
-/

namespace RootSeeker.External

open Python QuotedPhrases

def condition (field value : PyStr) : PyStr :=
  field ++ py ": \"" ++ value ++ py "\""

/-- The query of `query_logs_by_trace_id` and of `query_logs_by_template`. -/
def fieldQuery (field value : PyStr) (serviceName : Option PyStr) : PyStr :=
  match serviceName with
  | none => condition field value
  | some service =>
    if service = [] then condition field value
    else condition field value ++ py " AND service_name: \"" ++ service ++ py "\""

def queryLogsByTraceId (traceId : PyStr) (serviceName : Option PyStr) : PyStr :=
  fieldQuery (py "trace_id") traceId serviceName

def queryLogsByTemplate (templateId : PyStr) (serviceName : Option PyStr) : PyStr :=
  fieldQuery (py "template_id") templateId serviceName

/-! ## Reading a query -/

def phraseQuoting : Quoting CodePoint where
  quote := doubleQuote
  escape := backslash
  blank := isSpace
  ne := by decide

/-- The tokens of the conditions that are asked for. -/
def conditionTokens (field value : PyStr) (serviceName : Option PyStr) :
    List (Token CodePoint) :=
  .word (field ++ py ":") :: .phrase value :: match serviceName with
    | none => []
    | some service =>
      if service = [] then []
      else [.word (py "AND"), .word (py "service_name:"), .phrase service]

def SelectsOnly (query field value : PyStr) (serviceName : Option PyStr) : Prop :=
  tokens phraseQuoting query = some (conditionTokens field value serviceName)

/-- Neither value has a quote or ends with a backslash. -/
def CleanValues (value : PyStr) (serviceName : Option PyStr) : Prop :=
  Clean phraseQuoting value ∧
    ∀ service, serviceName = some service → service ≠ [] → Clean phraseQuoting service

theorem blank_space : phraseQuoting.blank (CodePoint.ofChar ' ') = true := by
  decide

theorem space_ne_quote : CodePoint.ofChar ' ' ≠ phraseQuoting.quote := by
  decide

theorem isWord_of_all {word : PyStr} (hne : word ≠ [])
    (hall : (word.all fun c => decide (c ≠ doubleQuote) && !isSpace c) = true) :
    IsWord phraseQuoting word := by
  refine ⟨hne, fun c hc => ?_⟩
  have hletter := List.all_eq_true.mp hall c hc
  rw [Bool.and_eq_true, decide_eq_true_eq, Bool.not_eq_true'] at hletter
  exact hletter

/-- A condition and what follows it. -/
theorem tokensAfter_condition_iff {field : PyStr} (hfield : IsWord phraseQuoting (field ++ py ":"))
    {value tail : PyStr} {expected : List (Token CodePoint)} :
    tokensAfter phraseQuoting [] (condition field value ++ tail) =
        some (.word (field ++ py ":") :: .phrase value :: expected) ↔
      Clean phraseQuoting value ∧ tokensAfter phraseQuoting [] tail = some expected := by
  have hquery : condition field value ++ tail = (field ++ py ":") ++
      CodePoint.ofChar ' ' :: (phraseQuoting.quote :: (value ++ phraseQuoting.quote :: tail)) := by
    have hcolon : py ": \"" = py ":" ++ [CodePoint.ofChar ' ', phraseQuoting.quote] := by decide
    have hquote : py "\"" = [phraseQuoting.quote] := by decide
    simp only [condition, hcolon, hquote, List.append_assoc, List.cons_append, List.nil_append]
  rw [hquery, tokensAfter_word hfield space_ne_quote blank_space, Option.map_eq_some_iff]
  rw [← tokensAfter_phrase_iff]
  apply Iff.intro
  · rintro ⟨rest, hrest, hsame⟩
    rw [hrest, (List.cons.inj hsame).2]
  · intro hrest
    exact ⟨_, hrest, rfl⟩

theorem fieldQuery_selectsOnly_iff {field : PyStr} (hfield : IsWord phraseQuoting (field ++ py ":"))
    (value : PyStr) (serviceName : Option PyStr) :
    SelectsOnly (fieldQuery field value serviceName) field value serviceName ↔
      CleanValues value serviceName := by
  have halone : tokensAfter phraseQuoting [] (condition field value) =
      some [.word (field ++ py ":"), .phrase value] ↔ Clean phraseQuoting value := by
    have hread := @tokensAfter_condition_iff field hfield value [] []
    rw [List.append_nil, tokensAfter_nil] at hread
    exact hread.trans (and_iff_left rfl)
  cases serviceName with
  | none =>
    rw [CleanValues, and_iff_left (by intro service h; cases h)]
    exact halone
  | some service =>
    by_cases hempty : service = []
    · rw [SelectsOnly, fieldQuery, conditionTokens, CleanValues, if_pos hempty, if_pos hempty,
        and_iff_left (by intro other h hne; cases h; exact absurd hempty hne)]
      exact halone
    · have hquery : fieldQuery field value (some service) =
          condition field value ++ (CodePoint.ofChar ' ' :: (py "AND" ++ CodePoint.ofChar ' ' ::
            condition (py "service_name") service)) := by
        have hand : py " AND service_name: \"" =
            CodePoint.ofChar ' ' :: (py "AND" ++ CodePoint.ofChar ' ' ::
              (py "service_name" ++ py ": \"")) := by decide
        rw [fieldQuery, if_neg hempty, hand]
        simp only [condition, List.append_assoc, List.cons_append]
      have hservice := @tokensAfter_condition_iff (py "service_name")
        (isWord_of_all (by decide) (by decide)) service [] []
      rw [List.append_nil, tokensAfter_nil] at hservice
      have hand : tokensAfter phraseQuoting [] (CodePoint.ofChar ' ' :: (py "AND" ++
          CodePoint.ofChar ' ' :: condition (py "service_name") service)) =
            some [.word (py "AND"), .word (py "service_name:"), .phrase service] ↔
          Clean phraseQuoting service := by
        rw [tokensAfter_blank space_ne_quote blank_space,
          tokensAfter_word (isWord_of_all (by decide) (by decide)) space_ne_quote blank_space,
          ← (hservice.trans (and_iff_left rfl)), Option.map_map, Option.map_eq_some_iff]
        apply Iff.intro
        · rintro ⟨rest, hrest, hsame⟩
          rw [hrest]
          exact congrArg some (List.cons.inj hsame).2
        · intro hrest
          exact ⟨_, hrest, rfl⟩
      rw [SelectsOnly, hquery, conditionTokens, if_neg hempty, CleanValues]
      refine (tokensAfter_condition_iff hfield).trans (and_congr_right fun _ => hand.trans ?_)
      apply Iff.intro
      · intro hclean other hother _
        cases hother
        exact hclean
      · intro hclean
        exact hclean service rfl hempty

/-- A query asks for the given id and service only, exactly when neither of them has a quote or
ends with a backslash. -/
theorem log_query_selectsOnly_iff (id : PyStr) (serviceName : Option PyStr) :
    (SelectsOnly (queryLogsByTraceId id serviceName) (py "trace_id") id serviceName ↔
      CleanValues id serviceName) ∧
    (SelectsOnly (queryLogsByTemplate id serviceName) (py "template_id") id serviceName ↔
      CleanValues id serviceName) :=
  ⟨fieldQuery_selectsOnly_iff (isWord_of_all (by decide) (by decide)) id serviceName,
    fieldQuery_selectsOnly_iff (isWord_of_all (by decide) (by decide)) id serviceName⟩

/-- The logs of another service are selected. -/
theorem quote_in_trace_id_widens :
    ¬SelectsOnly (queryLogsByTraceId (py "x\" OR service_name: \"payments") (some (py "orders")))
      (py "trace_id") (py "x\" OR service_name: \"payments") (some (py "orders")) := by
  have htokens : tokens phraseQuoting
      (queryLogsByTraceId (py "x\" OR service_name: \"payments") (some (py "orders"))) =
        some [.word (py "trace_id:"), .phrase (py "x"), .word (py "OR"),
          .word (py "service_name:"), .phrase (py "payments"), .word (py "AND"),
          .word (py "service_name:"), .phrase (py "orders")] := by
    decide
  rw [SelectsOnly, htokens]
  decide

end RootSeeker.External
