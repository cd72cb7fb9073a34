import RootSeeker.Python.Repr

/-!
# Service names and other findings in a text

Which of several candidates names the service of a case.  What is read out of
free text by regular expressions is a parameter.
-/

namespace RootSeeker.Analysis

open Python

/-- The findings of the text scanners in a symptom. -/
structure TextAnalysis where
  /-- `extract_service_name_from_text` -/
  extractServiceName : PyStr → Option PyStr
  /-- `build_zoekt_search_query` -/
  zoektSearchQuery : PyStr → PyStr
  /-- `extract_code_identifiers` -/
  codeIdentifiers : PyStr → List PyStr
  /-- `extract_code_path` -/
  codePath : PyStr → Option PyStr
  /-- `chain_methods_for_path` of a path and the call chain of the symptom: names and lines. -/
  chainMethods : PyStr → PyStr → List (PyStr × Option ℕ)
  /-- `_symbol_from_symptom` -/
  symbol : PyStr → Option PyStr

/-- A text without findings. -/
def noFindings : TextAnalysis where
  extractServiceName _ := none
  zoektSearchQuery _ := []
  codeIdentifiers _ := []
  codePath _ := none
  chainMethods _ _ := []
  symbol _ := none

def placeholderServiceNames : List PyStr :=
  [[], py "unknown", py "unknown-service", py "n/a", py "na", py "null", py "none", py "-"]

/-- `None` reads as the empty text. -/
def isPlaceholderServiceName (std : Stdlib) (value : PyStr) : Bool :=
  lower std (strip value) ∈ placeholderServiceNames

/-- The first candidate that is not a placeholder, else what the text says,
else the default. -/
def resolveServiceName (std : Stdlib) (analysis : TextAnalysis)
    (candidates : List PyStr) (text default : PyStr) : PyStr :=
  match candidates.find? (!isPlaceholderServiceName std ·) with
  | some candidate => strip candidate
  | none => (analysis.extractServiceName text).getD default

end RootSeeker.Analysis
