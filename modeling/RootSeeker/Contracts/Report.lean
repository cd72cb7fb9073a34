import RootSeeker.Contracts.Common

/-!
# Evidence packs and case reports

The evidence of a case, the conclusion drawn from it and the report that the
report store keeps.
-/

namespace RootSeeker.Contracts

open Python

inductive EvidenceType where
  | log
  | trace
  | code
  | metric
  | topology
  | serviceCatalog
  | other
  deriving DecidableEq

def EvidenceType.value : EvidenceType → PyStr
  | log => py "log"
  | trace => py "trace"
  | code => py "code"
  | metric => py "metric"
  | topology => py "topology"
  | serviceCatalog => py "service_catalog"
  | other => py "other"

structure EvidenceItem where
  itemId : RequiredStr
  type : EvidenceType
  source : RequiredStr
  content : Mapping

structure EvidencePack where
  caseId : RequiredStr
  items : List EvidenceItem
  summary : PyStr

/-- What `Field(ge=0.0, le=1.0)` accepts: no NaN, and neither bound is
crossed; `-0.0` is not below `0.0`. -/
def InUnitInterval : PyFloat → Prop
  | .finite negative magnitude => magnitude ≤ 1 ∧ (negative = true → magnitude = 0)
  | _ => False

instance : DecidablePred InUnitInterval := fun value =>
  match value with
  | .nan => inferInstanceAs (Decidable False)
  | .inf _ => inferInstanceAs (Decidable False)
  | .finite negative magnitude =>
    inferInstanceAs (Decidable (magnitude ≤ 1 ∧ (negative = true → magnitude = 0)))

structure RootCauseConclusion where
  title : RequiredStr
  narrative : PyStr
  confidence : PyFloat
  contributingFactors : List PyStr
  narrative_encodable : Encodable narrative
  confidence_bounds : InUnitInterval confidence
  factors_encodable : ∀ factor ∈ contributingFactors, Encodable factor

namespace RootCauseConclusion

/-- What the model checks of its fields. -/
def Valid (title narrative : PyStr) (confidence : PyFloat)
    (contributingFactors : List PyStr) : Prop :=
  (title ≠ [] ∧ Encodable title) ∧ Encodable narrative ∧ InUnitInterval confidence ∧
    ∀ factor ∈ contributingFactors, Encodable factor

instance (title narrative : PyStr) (confidence : PyFloat)
    (contributingFactors : List PyStr) :
    Decidable (Valid title narrative confidence contributingFactors) :=
  inferInstanceAs (Decidable (_ ∧ _ ∧ _ ∧ _))

def ofValid {title narrative : PyStr} {confidence : PyFloat}
    {contributingFactors : List PyStr}
    (hvalid : Valid title narrative confidence contributingFactors) :
    RootCauseConclusion where
  title := ⟨title, hvalid.1⟩
  narrative := narrative
  confidence := confidence
  contributingFactors := contributingFactors
  narrative_encodable := hvalid.2.1
  confidence_bounds := hvalid.2.2.1
  factors_encodable := hvalid.2.2.2

def validate (title narrative : PyStr) (confidence : PyFloat)
    (contributingFactors : List PyStr) : Except PyError RootCauseConclusion :=
  if hvalid : Valid title narrative confidence contributingFactors then
    .ok (ofValid hvalid)
  else .error .validationError

theorem exists_validate_iff {title narrative : PyStr} {confidence : PyFloat}
    {contributingFactors : List PyStr} :
    (∃ conclusion, validate title narrative confidence contributingFactors =
        .ok conclusion) ↔
      Valid title narrative confidence contributingFactors := by
  unfold validate
  constructor
  · intro hok
    by_contra hinvalid
    obtain ⟨conclusion, hconclusion⟩ := hok
    rw [dif_neg hinvalid] at hconclusion
    exact absurd hconclusion (by simp)
  · intro hvalid
    exact ⟨ofValid hvalid, dif_pos hvalid⟩

/-- `model_dump(mode="json")`. -/
def modelDump (conclusion : RootCauseConclusion) : Json :=
  .obj
    [(py "title", .str conclusion.title), (py "narrative", .str conclusion.narrative),
      (py "confidence", .float conclusion.confidence),
      (py "contributing_factors", .arr (conclusion.contributingFactors.map Json.str))]

end RootCauseConclusion

structure CaseReport where
  caseId : RequiredStr
  title : RequiredStr
  summary : PyStr
  rootCause : Option RootCauseConclusion
  evidenceItemIds : List PyStr
  metadata : Fields

end RootSeeker.Contracts
