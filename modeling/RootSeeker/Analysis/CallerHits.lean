import RootSeeker.Analysis.CallChain
import RootSeeker.Contracts.Numbers

/-!
# Callers from text hits

`_caller_from_hit` names the method in which a search hit stands: by a method header
in the snippet, else by what the snippet calls, else by the text above the hit.
-/

namespace RootSeeker.Analysis

open Python Patterns Contracts

def slashText : PyStr := py "/"

/-- `{"if", "for", "while", "switch", "catch", "new"}`. -/
def controlKeywords : List PyStr :=
  [py "if", py "for", py "while", py "switch", py "catch", py "new"]

section Patterns

variable (tables : WordTables)

/-- `[\w$]`. -/
def isJavaChar (c : CodePoint) : Bool :=
  tables.isWord c || c = dollar

/-- `[\w<>\[\],\s.?]`. -/
def isTypeChar (c : CodePoint) : Bool :=
  tables.isWord c || isSpace c || c ∈ py "<>[],.?"

/-- `(?:public|protected|private|static)`. -/
def accessModifier : Pattern CodePoint :=
  choice [literally (py "public"), literally (py "protected"), literally (py "private"),
    literally (py "static")]

/-- `_JAVA_METHOD_DEF_RE`. -/
def javaMethodHeader : Pattern CodePoint :=
  sequence [atLeastOne (choice [accessModifier, one isSpace]),
    atLeastOne (one (isTypeChar tables)), atLeastOne (one isSpace),
    group (atLeastOne (one (isJavaChar tables))), many (one isSpace), literally (py "("),
    many (one (· ≠ CodePoint.ofChar ';')), literally (py ")"), many (one isSpace),
    optional (sequence [literally (py "throws"),
      atLeastOne (one fun c => tables.isWord c || isSpace c || c = CodePoint.ofChar ',')]),
    many (one isSpace), literally (py "\x7b")]

/-- `\b([A-Za-z_][\w$]*)\s*\(`. -/
def calledName : Pattern CodePoint :=
  sequence [boundary tables.isWord,
    group (follow (one fun c => isAscii c && isWordChar (fun _ => false) c && !isDigit c)
      (many (one (isJavaChar tables)))),
    many (one isSpace), literally (py "(")]

/-- The header of a method of that name, with a modifier somewhere before it. -/
def definitionOf (methodName : PyStr) : Pattern CodePoint :=
  sequence [boundary tables.isWord, accessModifier, boundary tables.isWord,
    many (one (· ≠ newline)), boundary tables.isWord, literally methodName,
    many (one isSpace), literally (py "(")]

def typeDefinition : Pattern CodePoint :=
  sequence [boundary tables.isWord,
    choice [literally (py "class"), literally (py "interface"), literally (py "enum")],
    atLeastOne (one isSpace), atLeastOne (one tables.isWord)]

/-- `_JAVA_FILE_CLASS_RE`. -/
def javaFileClass : Pattern CodePoint :=
  choice
    [sequence [literally slashText, group (atLeastOne (one (isJavaChar tables))),
      literally (py ".java"), lookahead atEnd],
    sequence [startOfText,
      optional (sequence [atLeastOne (one (isJavaChar tables)), literally slashText]),
      group (atLeastOne (one (isJavaChar tables))), literally (py ".java"), lookahead atEnd]]

/-- The names that a pattern finds in a text, from left to right. -/
def namesFound (pattern : Pattern CodePoint) (text : PyStr) : List PyStr :=
  (findGroups pattern text).filterMap List.head?

/-- `_looks_like_definition`. -/
def looksLikeDefinition (snippet methodName : PyStr) : Bool :=
  strip snippet ≠ [] &&
    ((searchFrom (definitionOf tables methodName) none (strip snippet)).isSome ||
      (searchFrom (typeDefinition tables) none (strip snippet)).isSome)

/-- The name of a file without its last extension. -/
def stemOf (name : PyStr) : PyStr :=
  if dot ∈ name then (name.rdropWhile (· ≠ dot)).dropLast else name

/-- `_class_name_from_path`; empty for `None`. -/
def classNameFromPath (path : PyStr) : PyStr :=
  let normalized := path.map fun c => if c = backslash then CodePoint.ofChar '/' else c
  match searchFrom (javaFileClass tables) none normalized with
  | some (name :: _) => name
  | _ => stemOf (normalized.rtakeWhile (· ≠ CodePoint.ofChar '/'))

/-! ## The sources of a name -/

/-- The first name in a header that is not a control keyword. -/
def headerName (text : PyStr) : Option PyStr :=
  (namesFound (javaMethodHeader tables) text).find? (· ∉ controlKeywords)

/-- `_guess_method_from_filename`. -/
def guessMethodFromFilename (className snippet : PyStr) : Option PyStr :=
  (namesFound (calledName tables) snippet).reverse.find? fun token =>
    token ∉ controlKeywords ∧ token ≠ className

/-- `_caller_method_from_snippet`. -/
def callerMethodFromSnippet (snippet path calleeMethod : PyStr) : Option PyStr :=
  (headerName tables snippet).or
    (if classNameFromPath tables path = [] then none
      else (guessMethodFromFilename tables (classNameFromPath tables path) snippet).filter
        (· ≠ calleeMethod))

/-- The name of the leftmost header of a line, unless that is a control keyword. -/
def lineMethod (line : PyStr) : Option PyStr :=
  match searchFrom (javaMethodHeader tables) none line with
  | some (name :: _) => if name ∈ controlKeywords then none else some name
  | _ => none

/-- The last method that a line names. -/
def lastMethod (lines : List PyStr) : Option PyStr :=
  lines.reverse.findSome? (lineMethod tables)

end Patterns

/-! ## Reading the text above a hit -/

/-- A reader takes a path, a repository and, if asked for a part, its lines. -/
abbrev ReadCode := PyStr → Json → Option (ℤ × ℤ) → Except PyError Json

/-- The part of a file, or what a reader that refuses parts returns. -/
def readPart (readCode : ReadCode) (path : PyStr) (repo : Json) (part : ℤ × ℤ) :
    Except PyError Json :=
  match readCode path repo (some part) with
  | .error .typeError => readCode path repo none
  | result => result

/-- The text that a reader returned; empty where it is to be ignored. -/
def contentOf (std : Stdlib) : Json → PyStr
  | .obj payload => truthyText std [Dict.get? payload (py "content")]
  | _ => []

/-- The lines above a hit that are asked for, with its own. -/
def contextOf (line : ℤ) : ℤ × ℤ := (max 1 (line - 60), line)

/-- `int(line or 1)`. -/
def lineNumber (std : NumberStdlib) (line : Json) : Except PyError ℤ :=
  if line.truthy then intOf std line else .ok 1

/-- `_enclosing_method_from_context`. -/
def enclosingMethodFromContext (tables : WordTables) (std : NumberStdlib) (readCode : ReadCode)
    (path : PyStr) (repo line : Json) : Except PyError (Option PyStr) :=
  (lineNumber std line).bind fun line =>
    (readPart readCode path repo (contextOf line)).map fun payload =>
      lastMethod tables (splitLines (contentOf std.toStdlib payload))

/-! ## The caller -/

structure Caller where
  repo : Json
  path : PyStr
  line : Json
  snippet : PyStr
  score : Json
  callerClass : PyStr
  callerMethod : PyStr

section Hits

variable (tables : WordTables) (std : NumberStdlib) (readCode : Option ReadCode) (hit : Fields)

/-- `hit.get(key)`. -/
def hitField (key : String) : Json := (Dict.get? hit (py key)).getD .null

/-- `str(hit.get(key) or "")`. -/
def hitFieldText (key : String) : PyStr := truthyText std.toStdlib [Dict.get? hit (py key)]

/-- The name from the snippet, else from the text above the hit. -/
def callerMethodOf (calleeMethod : PyStr) : Except PyError (Option PyStr) :=
  match callerMethodFromSnippet tables (hitFieldText std hit "snippet") (hitFieldText std hit "path")
      calleeMethod, readCode with
  | some name, _ => .ok (some name)
  | none, none => .ok none
  | none, some readCode =>
    enclosingMethodFromContext tables std readCode (hitFieldText std hit "path")
      (hitField hit "repo") (hitField hit "line_start")

/-- The hits that are no call of the method. -/
def isNoCall (calleeMethod : PyStr) : Prop :=
  hitFieldText std hit "snippet" = [] ∨ hitFieldText std hit "path" = [] ∨
    looksLikeDefinition tables (hitFieldText std hit "snippet") calleeMethod = true ∨
    ¬calleeMethod <:+: hitFieldText std hit "snippet"

instance (calleeMethod : PyStr) : Decidable (isNoCall tables std hit calleeMethod) :=
  inferInstanceAs (Decidable (_ ∨ _ ∨ _ ∨ _))

def namedCaller (callerMethod : PyStr) : Caller where
  repo := hitField hit "repo"
  path := hitFieldText std hit "path"
  line := hitField hit "line_start"
  snippet := strip (hitFieldText std hit "snippet")
  score := (Dict.get? hit (py "score")).getD (.float (.finite false 0))
  callerClass := classNameFromPath tables (hitFieldText std hit "path")
  callerMethod := callerMethod

/-- The caller of that name, unless the file has no class or the method calls itself. -/
def reportedCaller (calleeMethod calleeClass : PyStr) (callerMethod : PyStr) : Option Caller :=
  let caller := namedCaller tables std hit callerMethod
  if caller.callerClass = [] ∨ caller.callerClass = calleeClass ∧ callerMethod = calleeMethod then
    none
  else some caller

/-- `_caller_from_hit`. -/
def callerFromHit (calleeMethod calleeClass : PyStr) : Except PyError (Option Caller) :=
  if isNoCall tables std hit calleeMethod then .ok none
  else (callerMethodOf tables std readCode hit calleeMethod).map fun name =>
    name.bind (reportedCaller tables std hit calleeMethod calleeClass)

end Hits

end RootSeeker.Analysis
