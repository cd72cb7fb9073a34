import RootSeeker.Analysis.LlmContent
import RootSeeker.Contracts.Numbers
import RootSeeker.Python.Doubles
import RootSeeker.Python.Lines

/-!
# Answers of the knowledge graph

GitNexus answers a query with a JSON value of one of several shapes.  The code
tries a symbol under several names, checks the class that an answer identifies
and reads the callers from it.
-/

namespace RootSeeker.CodeIndex

open Python Contracts

/-- The character tables behind `str.isupper` and `str.isalpha`. -/
structure GraphStdlib extends NumberStdlib where
  upperNonAscii : CodePoint → Bool
  alphaNonAscii : CodePoint → Bool

/-! ## Values -/

/-- `first or second`. -/
def pyOr (first second : Json) : Json :=
  if first.truthy then first else second

/-- `fields.get(key)`, where a missing key reads as `None`. -/
def fieldOf (fields : Fields) (key : String) : Json :=
  (fields.get? (py key)).getD .null

/-- `str(value or "")`. -/
def textOf (std : Stdlib) (value : Json) : PyStr :=
  truthyText std [some value]

/-- `needle in text`. -/
def occurs (needle : String) (text : PyStr) : Bool :=
  decide (py needle <:+: text)

/-- `float(value)`. -/
def floatOf (std : Stdlib) (value : Json) : Except PyError PyFloat :=
  match value with
  | .null => .error .typeError
  | .arr _ => .error .typeError
  | .obj _ => .error .typeError
  | value => do
    let number ← Analysis.tryFloat std (some value)
    number.elim (.error (.valueError (py "could not convert string to float"))) .ok

/-! ## Symbols -/

def isUpperLetter (std : GraphStdlib) (c : CodePoint) : Bool :=
  if isAscii c then 0x41 ≤ c.val && c.val ≤ 0x5A else std.upperNonAscii c && std.alphaNonAscii c

/-- `part[:1].isupper()`. -/
def startsUpper (std : GraphStdlib) (part : PyStr) : Bool :=
  match part with
  | [] => false
  | c :: _ => if isAscii c then 0x41 ≤ c.val && c.val ≤ 0x5A else std.upperNonAscii c

def isSymbolSeparator (c : CodePoint) : Bool :=
  c ∈ py ".#:/"

/-- The parts of a symbol that are not empty. -/
def symbolParts (symbol : PyStr) : List PyStr :=
  (symbol.splitOnP isSymbolSeparator).filter fun part => part ≠ []

/-- Append a name that is not blank and not there yet. -/
def addName (names : List PyStr) (name : PyStr) : List PyStr :=
  if strip name = [] ∨ strip name ∈ names then names else names ++ [strip name]

/-- `_symbol_candidates`. -/
def symbolCandidates (std : GraphStdlib) (symbol : PyStr) : List PyStr :=
  let value := strip symbol
  if value = [] then []
  else
    let names := addName [] value
    let names :=
      if CodePoint.ofChar '(' ∈ value then
        addName names (value.takeWhile (· ≠ CodePoint.ofChar '('))
      else names
    match (symbolParts value).reverse with
    | last :: previous :: _ =>
      if startsUpper std previous then
        addName (addName (addName names last) (previous ++ py "." ++ last)) previous
      else addName names last
    | _ => names

/-- `_requested_class_token`: the last part that starts with a capital letter. -/
def requestedClassToken (std : GraphStdlib) (symbol : PyStr) : Option PyStr :=
  ((symbolParts symbol).filter fun part => part.head?.any (isUpperLetter std)).getLast?

/-! ## The class that an answer identifies -/

section Answers

variable (std : GraphStdlib)

/-- The identifier, the name and the file that an object shows. -/
def symbolTexts (fields : Fields) : List PyStr :=
  [textOf std.toStdlib (fieldOf fields "uid"), textOf std.toStdlib (fieldOf fields "name"),
    textOf std.toStdlib (pyOr (fieldOf fields "filePath") (fieldOf fields "file"))]

def nestedTexts (value : Json) : List PyStr :=
  match value with
  | .obj fields => symbolTexts std fields
  | value => if value.truthy then [str std.toStdlib value] else []

/-- `_resolved_symbol_blob`. -/
def resolvedSymbolBlob (data : Json) : PyStr :=
  match data with
  | .obj fields =>
    join (py " ")
      (nestedTexts std (fieldOf fields "symbol") ++ nestedTexts std (fieldOf fields "target") ++
        if (fieldOf fields "uid").truthy then symbolTexts std fields else [])
  | _ => []

/-- `_result_matches_symbol`. -/
def resultMatchesSymbol (data : Json) (symbol : PyStr) : Bool :=
  match requestedClassToken std symbol with
  | none => true
  | some className =>
    className.length < 3 || strip (resolvedSymbolBlob std data) = [] ||
      decide (lower std.toStdlib className <:+: lower std.toStdlib (resolvedSymbolBlob std data))

/-- Some value of the object is truthy. -/
def anyValue : Json → Bool
  | .obj fields => fields.any fun field => field.2.truthy
  | _ => false

def statusIs (fields : Fields) (status : String) : Bool :=
  lower std.toStdlib (textOf std.toStdlib (fieldOf fields "status")) = py status

def relationKeys : List String :=
  ["incoming", "outgoing", "processes", "process", "categories", "categorized", "refs"]

/-- `_graph_hit_usable`. -/
def graphHitUsable (data : Json) : Except PyError Bool :=
  match data with
  | .obj fields =>
    if occurs "not found" (lower std.toStdlib (textOf std.toStdlib (fieldOf fields "error"))) then
      .ok false
    else if statusIs std fields "ambiguous" then .ok false
    else
      (intOrZero std.toNumberStdlib fields (py "impactedCount")).map fun impacted =>
        0 < impacted || anyValue (fieldOf fields "byDepth") ||
          anyValue (fieldOf fields "by_depth") ||
          (relationKeys.any fun key => (fieldOf fields key).truthy) ||
          anyValue (fieldOf fields "summary")
  | _ => .ok false

/-! ## Ambiguous answers -/

/-- `path.replace("\\", "/")`. -/
def forwardSlashes (path : PyStr) : PyStr :=
  path.map fun c => if c = CodePoint.ofChar '\\' then CodePoint.ofChar '/' else c

/-- The text before the last dot, if there is a dot. -/
def beforeLastDot (symbol : PyStr) : Option PyStr :=
  if CodePoint.ofChar '.' ∈ symbol then
    some (symbol.rdropWhile (· ≠ CodePoint.ofChar '.')).dropLast
  else none

/-- The points of a row: its file, an implementation and the class speak for it, an interface
against it. -/
def candidatePoints (symbol : PyStr) (file : Option PyStr) (row : Fields) : ℤ :=
  let path := lower std.toStdlib (forwardSlashes
    (textOf std.toStdlib (pyOr (fieldOf row "filePath") (fieldOf row "file"))))
  let name := lower std.toStdlib (textOf std.toStdlib (fieldOf row "name"))
  let uid := lower std.toStdlib (textOf std.toStdlib (fieldOf row "uid"))
  let fileHint := lower std.toStdlib (forwardSlashes (file.getD []))
  let classHint := lower std.toStdlib (strip ((beforeLastDot symbol).getD []))
  (if fileHint ≠ [] ∧ fileHint <:+: path then 100 else 0) +
    (if occurs "/impl/" path then 50 else 0) +
    (if classHint ≠ [] ∧ (classHint <:+: path ∨ classHint <:+: name ∨ classHint <:+: uid) then 40
      else 0) -
    (if occurs "interface" path ∨ (py "i" ++ classHint ++ py ".java") <:+ path then 20 else 0)

def objectRows : Json → List Fields
  | .arr rows => rows.filterMap fun row =>
    match row with
    | .obj fields => some fields
    | _ => none
  | _ => []

/-- A row with its points and its score. -/
def scoredRow (symbol : PyStr) (file : Option PyStr) (row : Fields) :
    Except PyError (Fields × ℤ × PyFloat) := do
  let score ← floatOf std.toStdlib (pyOr (fieldOf row "score") (.float (.finite false 0)))
  pure (row, candidatePoints std symbol file row, score)

def scoreLess (left right : Fields × ℤ × PyFloat) : Bool :=
  left.2.1 < right.2.1 || (left.2.1 = right.2.1 && left.2.2.lt right.2.2)

/-- `_pick_ambiguous_candidate`: the first row with the highest score. -/
def pickAmbiguousCandidate (candidates : Json) (symbol : PyStr) (file : Option PyStr) :
    Except PyError (Option Fields) := do
  match ← (objectRows candidates).mapM (scoredRow std symbol file) with
  | [] => pure none
  | first :: rest =>
    pure (some (rest.foldl (fun best row => if scoreLess best row then row else best) first).1)

/-! ## Callers -/

structure Caller where
  repo : Json
  path : Json
  line : Json
  snippet : Json
  score : PyFloat
  callerClass : Json
  callerMethod : Json
  depth : ℤ
  uid : Json

/-- `_split_symbol`. -/
def splitSymbol (symbol : PyStr) : Json × PyStr :=
  let value := strip symbol
  match beforeLastDot value with
  | none => (.null, value)
  | some left =>
    let right := value.rtakeWhile (· ≠ CodePoint.ofChar '.')
    (if left = [] then .null else .str left, if right = [] then value else right)

/-- A caller of which only a text is known. -/
def textCaller (snippet : PyStr) (score : PyFloat) (callerClass : Json) (callerMethod : PyStr) :
    Caller where
  repo := .null
  path := .null
  line := .null
  snippet := .str snippet
  score := score
  callerClass := callerClass
  callerMethod := .str callerMethod
  depth := 1
  uid := .null

/-- The first field that is truthy, else the last one. -/
def firstField (fields : Fields) (keys : List String) : Json :=
  (keys.map (fieldOf fields)).foldr (fun value rest => if value.truthy then value else rest)
    ((keys.getLast?.map (fieldOf fields)).getD .null)

def objectCaller (item : Fields) : Except PyError Caller := do
  let name := textOf std.toStdlib
    (firstField item ["name", "symbol", "qualified_name", "id", "label"])
  let callerClass := firstField item ["class", "caller_class", "parent"]
  let callerMethod := firstField item ["method", "caller_method"]
  let score ← floatOf std.toStdlib
    (pyOr (firstField item ["score", "confidence"]) (.float (.finite false 1)))
  let depth ← intOf std.toNumberStdlib (pyOr (fieldOf item "depth") (.int 1))
  pure
    { repo := fieldOf item "repo"
      path := firstField item ["file", "path", "filepath"]
      line := firstField item ["line", "start_line", "line_start"]
      snippet := pyOr (fieldOf item "snippet") (.str name)
      score := score
      callerClass := pyOr callerClass (splitSymbol name).1
      callerMethod := pyOr callerMethod (.str (splitSymbol name).2)
      depth := depth
      uid := firstField item ["uid", "id"] }

/-- `_normalize_caller_item` with the default depth 1. -/
def normalizeCallerItem : Json → Except PyError Caller
  | .str text =>
    let (callerClass, callerMethod) := splitSymbol text
    .ok (textCaller text (.finite false 1) callerClass callerMethod)
  | .obj item => objectCaller std item
  | item =>
    .ok (textCaller (str std.toStdlib item) (.finite false (1 / 2)) .null
      (str std.toStdlib item))

/-- `max(1, max_depth) * 20`. -/
def callerLimit (maxDepth : ℤ) : ℕ :=
  (max 1 maxDepth).toNat * 20

def callersOf (items : List Json) (maxDepth : ℤ) : Except PyError (List Caller) :=
  (items.mapM (normalizeCallerItem std)).map (List.take (callerLimit maxDepth))

def isBullet (c : CodePoint) : Bool :=
  c ∈ py "-*•"

/-- `line.strip().lstrip("-*•").strip()`. -/
def unbulleted (line : PyStr) : PyStr :=
  strip ((strip line).dropWhile isBullet)

/-- The caller that a line shows, if it is not blank, too short or a heading. -/
def lineCaller (line : PyStr) : Option Caller :=
  let shown := unbulleted line
  let heading := ["upstream", "downstream", "impact", "depth"].any fun token =>
    occurs token (lower std.toStdlib shown)
  if shown.length < 3 then none
  else if heading && !occurs "(" shown && !occurs "." shown then none
  else
    let (callerClass, callerMethod) := splitSymbol (shown.takeWhile (!isSpace ·))
    some (textCaller shown (.finite false (7 / 10)) callerClass callerMethod)

/-- `_parse_text_callers`. -/
def parseTextCallers (text : PyStr) (maxDepth : ℤ) : List Caller :=
  ((splitLines text).filterMap (lineCaller std)).take (callerLimit maxDepth)

/-- The value of the first key that holds a list. -/
def firstList (fields : Fields) (keys : List String) : List Json :=
  (keys.findSome? fun key =>
    match fieldOf fields key with
    | .arr items => some items
    | _ => none).getD []

/-- The item of a group, with the depth of the group and the path of its file as defaults. -/
def groupFields (depthKey : PyStr) (item : Fields) : Fields :=
  let deep := item.set (py "depth") ((item.get? (py "depth")).getD (.str depthKey))
  let filed := deep.setDefault (py "file") (pyOr (fieldOf deep "filePath") (fieldOf deep "path"))
  filed.setDefault (py "path") (pyOr (fieldOf filed "filePath") (fieldOf filed "file"))

def groupItem (depthKey : PyStr) : Json → Json
  | .obj item => .obj (groupFields depthKey item)
  | item => item

def depthItems : Json → List Json
  | .obj groups => groups.flatMap fun group =>
    match group.2 with
    | .arr items => items.map (groupItem group.1)
    | _ => []
  | _ => []

/-- `byDepth`, if it is an object, else `by_depth`. -/
def byDepthOf (fields : Fields) : Json :=
  match fieldOf fields "byDepth" with
  | .obj groups => .obj groups
  | _ => fieldOf fields "by_depth"

/-- `_extract_callers_from_impact`. -/
def extractCallersFromImpact (data : Json) (maxDepth : ℤ) : Except PyError (List Caller) :=
  match data with
  | .arr items => callersOf std (items.filter Json.truthy) maxDepth
  | .obj fields =>
    let listed := firstList fields
      ["affected", "nodes", "results", "upstream", "callers", "items", "symbols"]
    let items := if listed = [] then depthItems (byDepthOf fields) else listed
    match items, fieldOf fields "text" with
    | [], .str text => .ok (parseTextCallers std text maxDepth)
    | items, _ => callersOf std (items.filter Json.truthy) maxDepth
  | _ => .ok []

/-- The first list that is not empty. -/
def firstFullList (fields : Fields) (keys : List String) : List Json :=
  (keys.findSome? fun key =>
    match fieldOf fields key with
    | .arr (item :: items) => some (item :: items)
    | _ => none).getD []

/-- `_extract_callers_from_context`. -/
def extractCallersFromContext (data : Json) (maxDepth : ℤ) : Except PyError (List Caller) :=
  match data with
  | .str text => .ok (parseTextCallers std text maxDepth)
  | .obj fields =>
    let direct := firstFullList fields ["incoming", "callers", "references", "refs", "used_by"]
    let categorized :=
      match pyOr (fieldOf fields "categorized") (fieldOf fields "refs") with
      | .obj categories => firstFullList categories ["calls", "callers", "incoming", "references"]
      | _ => []
    match direct ++ categorized, fieldOf fields "text" with
    | [], .str text => .ok (parseTextCallers std text maxDepth)
    | _, _ => callersOf std (if direct = [] then categorized else direct) maxDepth
  | _ => .ok []

end Answers

end RootSeeker.CodeIndex
