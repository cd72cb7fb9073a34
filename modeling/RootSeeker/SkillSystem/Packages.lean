import RootSeeker.Contracts.Common
import RootSeeker.Core.FileTree
import RootSeeker.SkillSystem.Registry

/-!
# Skill packages

A package is a directory with a `SKILL.md`, whose front matter names the skill
after the directory.
-/

namespace RootSeeker.SkillSystem

open Python Contracts

variable {β : Type}

abbrev SkillPath := Path PyStr

abbrev Files (β : Type) := FileTree PyStr β

/-- Reading a text as UTF-8 and its front matter as YAML, which must be a mapping. -/
structure Loader (β : Type) where
  frontmatter : β → Except SkillFailure Fields

def skillFilename : PyStr := py "SKILL.md"

/-- `str(path)` of an absolute path. -/
def pathText (path : SkillPath) : PyStr :=
  py "/" ++ join (py "/") path

/-- `path.parent`. -/
def parent (path : SkillPath) : SkillPath := path.dropLast

/-- `path.name`. -/
def pathName (path : SkillPath) : PyStr := path.getLast?.getD []

/-- `sorted(root.rglob("SKILL.md"))`. -/
def discoverSkillFiles (files : Files β) (root : SkillPath) : List SkillPath :=
  if files.isDir root then
    ((files.keys.filter fun path =>
      root <+: path ∧ path ≠ root ∧ pathName path = skillFilename).dedup).insertionSort
        fun left right => left ≤ right
  else []

/-! ## Loading -/

/-- `text.split()`. -/
def words (text : PyStr) : List PyStr :=
  (text.splitOnP isSpace).filter fun word => word ≠ []

/-- An element of a sequence that `dict` accepts, with a key that is a text. -/
def pairOf : Json → Option (PyStr × Json)
  | .arr [.str key, value] => some (key, value)
  | .str [key, value] => some ([key], .str [value])
  | .obj [(key, _), (value, _)] => some (key, .str value)
  | _ => none

/-- `dict(value or {})`; a key that is no text is rejected by the model anyway. -/
def dictOf (value : Option Json) : Except SkillFailure Fields :=
  match value.filter Json.truthy with
  | none => .ok []
  | some (.obj fields) => .ok fields
  | some (.arr items) =>
    match items.mapM pairOf with
    | some pairs => .ok (Dict.update [] pairs)
    | none => .error .validationError
  | some (.str _) =>
    .error (.valueError (py "dictionary update sequence element #0 has length 1; 2 is required"))
  | some _ => .error .typeError

def readFile (files : Files β) (path : SkillPath) : Except SkillFailure β :=
  match files.get? path with
  | some (.file content) => .ok content
  | _ => .error .osError

/-- What the fields of the model check: texts without unpaired surrogates. -/
def SpecEncodable (description : PyStr) (tools : List PyStr) (metadata : Fields) : Prop :=
  Encodable description ∧ (∀ tool ∈ tools, Encodable tool) ∧ KeysEncodable metadata

instance (description : PyStr) (tools : List PyStr) (metadata : Fields) :
    Decidable (SpecEncodable description tools metadata) :=
  inferInstanceAs (Decidable (_ ∧ _ ∧ _))

/-- The specification that the front matter of a package gives. -/
def skillOfFrontmatter (std : Stdlib) (data : Fields) (directory : SkillPath)
    (source : SkillSourceKind) : Except SkillFailure SkillSpec :=
  let name := strip (truthyText std [data.get? (py "name")])
  if hname : ValidName name then
    if name ≠ pathName directory then
      .error (.skillError (py "SKILL_INVALID_PACKAGE")
        (py "name " ++ reprText std name ++ py " must match directory " ++
          reprText std (pathName directory)))
    else
      let allowed := words (truthyText std
        [data.get? (py "allowed-tools"), data.get? (py "allowed_tools")])
      (dictOf (data.get? (py "metadata"))).bind fun given =>
        let metadata := (given.setDefault (py "role") (.str (py "helper"))).set (py "skill_dir")
          (.str (pathText directory))
        let description := truthyText std [data.get? (py "description")]
        let isPlaybook : Bool :=
          match metadata.get? (py "role") with
          | some (.str role) => role = py "playbook"
          | _ => false
        if SpecEncodable description allowed metadata then
          .ok
            { name := name
              slug := name
              description := description
              skillKind := if isPlaybook then .flow else .tool
              boundTools := allowed
              sourceKind := source
              metadata := metadata
              named := rfl
              valid := hname }
        else .error .validationError
  else
    .error (.skillError (py "SKILL_INVALID_PACKAGE")
      (py "invalid skill name: " ++ reprText std name))

def loadSkillFromPath (std : Stdlib) (loader : Loader β) (files : Files β) (path : SkillPath)
    (source : SkillSourceKind) : Except SkillFailure SkillSpec :=
  (readFile files path).bind fun content =>
    (loader.frontmatter content).bind fun data =>
      skillOfFrontmatter std data (parent path) source

end RootSeeker.SkillSystem
