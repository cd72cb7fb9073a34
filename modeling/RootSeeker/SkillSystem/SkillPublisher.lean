import RootSeeker.SkillSystem.Installer
import RootSeeker.SkillSystem.SkillDrafts

/-!
# Publishing skill drafts

An approved draft is written to a directory of its own, and the skill that the
loader reads back is put into the registry.  The loader accepts the names of
packages only, and the name that the builder gives a draft is none.
-/

namespace RootSeeker.SkillSystem

open Python Contracts

/-! ## Reading a document -/

/-- `_split_frontmatter`. -/
def splitFrontmatter (text : PyStr) : Except SkillFailure (PyStr × PyStr) :=
  let delimiter := fun line => decide (strip line = py "---")
  match splitLines (text.dropWhile fun c => c.val = 0xFEFF) with
  | [] => .error (.valueError (py "SKILL.md must start with YAML frontmatter (---)"))
  | first :: rest =>
    if !delimiter first then
      .error (.valueError (py "SKILL.md must start with YAML frontmatter (---)"))
    else
      match rest.dropWhile (!delimiter ·) with
      | [] => .error (.valueError (py "SKILL.md frontmatter not closed with ---"))
      | _ :: body => .ok (join (py "\n") (rest.takeWhile (!delimiter ·)), join (py "\n") body)

/-- `_parse_frontmatter_dict`. -/
def parseFrontmatter (yaml : Yaml) (text : PyStr) : Except SkillFailure Fields :=
  (splitFrontmatter text).bind fun parts =>
    match yaml.safeLoad parts.1 with
    | some (.obj fields) => .ok fields
    | some _ => .error (.valueError (py "SKILL frontmatter must parse to a mapping"))
    | none => .error .yamlError

def documentLoader (yaml : Yaml) : Loader PyStr where
  frontmatter := parseFrontmatter yaml

/-! ## Publishing -/

inductive ReviewStatus where
  | pending
  | approved
  | rejected
  | needsRevision
  deriving DecidableEq

structure SkillReview where
  reviewId : PyStr
  draftSlug : PyStr
  status : ReviewStatus

inductive PublishStatus where
  | draft
  | published
  | deprecated
  | archived
  deriving DecidableEq

structure PublishedSkill where
  slug : PyStr
  version : PyStr
  status : PublishStatus
  skillPath : SkillPath
  publishedBy : PyStr
  sourceReviewId : PyStr
  metadata : Fields

structure SkillPublisher where
  targetDir : SkillPath
  registry : Option SkillRegistry
  published : Dict PyStr PublishedSkill

/-- The files and the publisher after a call, and what it returns or raises. -/
structure PublishOutcome where
  files : Files PyStr
  publisher : SkillPublisher
  result : Except SkillFailure (Option PublishedSkill)

/-- `path / name`. -/
def joinPath (path : SkillPath) (name : PyStr) : SkillPath :=
  if name = [] ∨ name = py "." then path else path ++ [name]

namespace SkillPublisher

/-- `path.write_text(text, encoding="utf-8")`. -/
def writeText (files : Files PyStr) (path : SkillPath) (text : PyStr) :
    Except SkillFailure (Files PyStr) :=
  if !Encodable text then .error .unicodeEncodeError
  else if files.isDir path then .error .osError
  else .ok (files.set path (.file text))

variable (std : Stdlib) (yaml : Yaml) (publisher : SkillPublisher) (files : Files PyStr)
  (draft : SkillDraft)

def skillDir : SkillPath :=
  joinPath publisher.targetDir (SkillDraftBuilder.replaceChar '/' '-' draft.slug)

def specFilename : PyStr := py "rootseeker-skill.yaml"

/-- `_write_skill_file`. -/
def writeSkillFile : Files PyStr × Except SkillFailure SkillPath :=
  let dir := publisher.skillDir draft
  match InstallRequest.makeDirs files dir with
  | none => (files, .error .osError)
  | some made =>
    match writeText made (dir ++ [skillFilename]) (draft.toSkillMd yaml) with
    | .error raised => (made, .error raised)
    | .ok documented =>
      match writeText documented (dir ++ [specFilename]) (draft.toRootseekerSpecYaml yaml) with
      | .error raised => (documented, .error raised)
      | .ok written => (written, .ok (dir ++ [skillFilename]))

/-- Load the skill and put it into the registry. -/
def registerWritten (path : SkillPath) : SkillPublisher × Option SkillFailure :=
  match publisher.registry with
  | none => (publisher, none)
  | some registry =>
    match loadSkillFromPath std (documentLoader yaml) files path .builtin with
    | .error raised => (publisher, some raised)
    | .ok spec =>
      let (after, raised) := registry.upsert std spec
      ({ publisher with registry := some after }, raised)

def publishedRecord (review : SkillReview) (publishedBy : PyStr) (path : SkillPath) :
    PublishedSkill where
  slug := draft.slug
  version := draft.version
  status := .published
  skillPath := path
  publishedBy := publishedBy
  sourceReviewId := review.reviewId
  metadata :=
    [(py "source_case_id", .str draft.sourceCaseId), (py "original_confidence",
        (draft.metadata.get? (py "confidence")).getD (.float (.finite false 0)))]

def publish (review : SkillReview) (publishedBy : PyStr) : PublishOutcome :=
  if review.status ≠ .approved ∨ review.draftSlug ≠ draft.slug then
    { files, publisher, result := .ok none }
  else
    match publisher.writeSkillFile yaml files draft with
    | (files, .error raised) => { files, publisher, result := .error raised }
    | (files, .ok path) =>
      match publisher.registerWritten std yaml files path with
      | (publisher, some raised) => { files, publisher, result := .error raised }
      | (publisher, none) =>
        let record := publishedRecord draft review publishedBy path
        { files
          publisher :=
            { publisher with published := publisher.published.set draft.slug record }
          result := .ok (some record) }

end SkillPublisher

/-! ## Loading back -/

/-- Publishing returned a record, and the skill that is found under the slug of the draft carries
its name, its description and its tools. -/
structure LoadsBack (draft : SkillDraft) (outcome : PublishOutcome) : Prop where
  returned : ∃ record, outcome.result = .ok (some record)
  found : ∃ registry spec, outcome.publisher.registry = some registry ∧
    registry.get draft.slug = some spec ∧ spec.name = draft.name ∧
      spec.description = draft.description ∧ spec.boundTools = draft.requiredTools

section Built

open SkillDraftBuilder SkillPublisher

variable {std : Stdlib} {yaml : Yaml} {builder : SkillDraftBuilder} {report : CaseReport}
  {draft : SkillDraft}

theorem draft_of_built (hbuilt : builder.buildFromReport std report = some draft) :
    draft.name = generateName report ∧ draft.slug = generateSlug std report := by
  rw [buildFromReport] at hbuilt
  split at hbuilt
  · obtain rfl := Option.some.inj hbuilt
    exact ⟨rfl, rfl⟩
  · exact absurd hbuilt (by simp)

/-- The name of a built draft begins with a capital letter. -/
theorem head_of_built (hbuilt : builder.buildFromReport std report = some draft) :
    ∃ rest, draft.name = CodePoint.ofChar 'A' :: rest := by
  rw [(draft_of_built hbuilt).1, generateName]
  cases report.rootCause with
  | none => exact ⟨_, rfl⟩
  | some cause => exact ⟨_, rfl⟩

theorem not_validName_of_head {name rest : PyStr} (hname : name = CodePoint.ofChar 'A' :: rest) :
    ¬ValidName name := by
  intro hvalid
  have hchars := isNameChar_or_hyphen hvalid.2
  rw [hname, List.forall_mem_cons] at hchars
  exact absurd hchars.1 (by decide)

/-- No draft of the builder loads back: its name is not the name of a package, and the skills of
the registry have names of packages. -/
theorem built_drafts_never_load_back (hbuilt : builder.buildFromReport std report = some draft)
    (yaml : Yaml) (publisher : SkillPublisher) (files : Files PyStr) (review : SkillReview)
    (publishedBy : PyStr) :
    ¬LoadsBack draft (publisher.publish std yaml files draft review publishedBy) := by
  intro hloads
  obtain ⟨registry, spec, _, _, hname, _⟩ := hloads.found
  obtain ⟨rest, hhead⟩ := head_of_built hbuilt
  exact not_validName_of_head (hname.trans hhead) spec.valid

/-- The report of a full disk, three items of evidence and full confidence. -/
def diskReport : CaseReport where
  caseId := .ofLiteral "case-1" Fixture.caseOne
  title := .ofLiteral "Case 1" (by decide)
  summary := []
  rootCause := some (@RootCauseConclusion.ofValid (py "disk full") (py "No space left")
    (.finite false 1) [py "log"] (by decide))
  evidenceItemIds := [py "ev-1", py "ev-2", py "ev-3"]
  metadata := []

def defaultBuilder : SkillDraftBuilder where
  minEvidenceCount := 3
  minConfidence := .finite false (3 / 5)

def diskDraft : SkillDraft where
  slug := py "generated/disk-full"
  name := py "Auto: disk full"
  version := py "0.1.0-draft"
  description := py "No space left"
  triggers :=
    [[(py "type", .str (py "keyword")), (py "pattern", .str (py "log")),
      (py "source", .str (py "auto_extracted"))]]
  requiredTools := extractTools
  steps := extractSteps
  sourceCaseId := py "case-1"
  metadata :=
    [(py "tags", .arr [.str (py "auto-generated"), .str (py "log")]),
      (py "confidence", .float (.finite false 1))]

/-- The two lines that the library writes for the front matter of `diskDraft`, read back. -/
def diskYaml : Yaml where
  dump _ := py "description: No space left\nname: 'Auto: disk full'\n"
  safeLoad text :=
    if text = py "description: No space left\nname: 'Auto: disk full'" then
      some (.obj
        [(py "description", .str (py "No space left")), (py "name", .str (py "Auto: disk full"))])
    else none

def emptyPublisher : SkillPublisher where
  targetDir := [py "skills", py "generated"]
  registry := some .new
  published := []

def diskReview : SkillReview where
  reviewId := py "review-1"
  draftSlug := py "generated/disk-full"
  status := .approved

theorem built_diskDraft : defaultBuilder.buildFromReport asciiStdlib diskReport =
    some diskDraft := by
  rw [buildFromReport, if_pos (by decide +kernel)]
  rfl

theorem diskDraft_never_loads_back :
    ¬LoadsBack diskDraft
      (emptyPublisher.publish asciiStdlib diskYaml [] diskDraft diskReview (py "auto")) :=
  built_drafts_never_load_back built_diskDraft diskYaml emptyPublisher [] diskReview (py "auto")

/-- The draft of the full disk is approved and written, and publishing it raises. -/
theorem publishing_diskDraft_raises :
    defaultBuilder.buildFromReport asciiStdlib diskReport = some diskDraft ∧
      (emptyPublisher.publish asciiStdlib diskYaml [] diskDraft diskReview
          (py "auto")).result.map (Option.map PublishedSkill.slug) =
        .error (.skillError (py "SKILL_INVALID_PACKAGE")
          (py "invalid skill name: 'Auto: disk full'")) := by
  refine ⟨?_, by decide +kernel⟩
  rw [buildFromReport, if_pos (by decide +kernel)]
  rfl

end Built

end RootSeeker.SkillSystem
