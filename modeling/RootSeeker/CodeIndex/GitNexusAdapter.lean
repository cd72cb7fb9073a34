import RootSeeker.CodeIndex.GitNexusAnswers
import RootSeeker.Core.Effects

/-!
# Querying the knowledge graph

A symbol is looked up under several names, first in the repository that is asked
for and then in all of them.  A search that finds no fitting answer still gives
its last one.
-/

namespace RootSeeker.CodeIndex

open Python Contracts Effects

structure GitNexusCommandResult where
  ok : Bool
  stdout : PyStr
  stderr : PyStr
  data : Json

inductive SearchKind where
  | impact
  | context
  deriving DecidableEq

/-- The commands; an impact query is about what is upstream, and the working directory follows
from the repository. -/
inductive GitNexusCall where
  | list
  | search (kind : SearchKind) (symbol : PyStr) (repo file uid : Option PyStr)

/-- The adapter with the command line tool, whose answers may depend on all that was asked
before. -/
structure GitNexus where
  std : GraphStdlib
  enabled : Bool
  answer : List GitNexusCall → GitNexusCall → GitNexusCommandResult

/-- What was asked, and the cached names of the repositories. -/
structure AdapterState where
  asked : List GitNexusCall
  repoNames : List PyStr

abbrev Session := StateT AdapterState (Except PyError)

/-- What a search returns: a command result, or a failure without a command. -/
structure GraphPayload where
  ok : Bool
  stdout : PyStr
  stderr : PyStr
  error : Option PyStr
  result : Json
  symbol : Option PyStr
  repo : Option PyStr
  disambiguatedUid : Option PyStr
  repoFallback : Bool

def GraphPayload.failed (error : String) : GraphPayload where
  ok := false
  stdout := []
  stderr := []
  error := some (py error)
  result := .null
  symbol := none
  repo := none
  disambiguatedUid := none
  repoFallback := false

/-- `_wrap`. -/
def wrap (result : GitNexusCommandResult) (symbol : PyStr) (repo uid : Option PyStr) :
    GraphPayload where
  ok := result.ok
  stdout := result.stdout
  stderr := result.stderr
  error := none
  result := result.data
  symbol := some symbol
  repo := repo
  disambiguatedUid := uid
  repoFallback := false

/-- `first or second`. -/
def orText (first second : Option PyStr) : Option PyStr :=
  match first with
  | some (c :: rest) => some (c :: rest)
  | _ => second

/-- `text or None`. -/
def someText (text : PyStr) : Option PyStr :=
  if text = [] then none else some text

/-! ## Repositories -/

section Repositories

variable (std : GraphStdlib)

def repoNameSuffixes : List PyStr :=
  [py "-service", py "-api", py "-svc", py "-server"]

/-- `_repo_match_aliases`. -/
def repoMatchAliases (requested : PyStr) : List PyStr :=
  let lowered := lower std.toStdlib requested
  repoNameSuffixes.foldl (fun aliases suffix =>
    let stem := lowered.take (lowered.length - suffix.length)
    if suffix <:+ lowered ∧ suffix.length + 1 < lowered.length ∧ stem ≠ [] ∧ stem ∉ aliases then
      aliases ++ [stem]
    else aliases) [lowered]

/-- `text.split("__")`. -/
def splitUnderscores : PyStr → List PyStr
  | [] => [[]]
  | [c] => [[c]]
  | c :: d :: rest =>
    if c = CodePoint.ofChar '_' ∧ d = CodePoint.ofChar '_' then [] :: splitUnderscores rest
    else
      match splitUnderscores (d :: rest) with
      | [] => [[c]]
      | part :: parts => (c :: part) :: parts

/-- `_repo_path_tokens`. -/
def repoPathTokens (name : PyStr) : List PyStr :=
  (((forwardSlashes name).splitOn (CodePoint.ofChar '/')).flatMap splitUnderscores).foldl
    (fun tokens token =>
      let text := lower std.toStdlib (strip token)
      if text = [] ∨ text ∈ tokens then tokens else tokens ++ [text]) []

/-- The shortest name, the first of several. -/
def shortest : List PyStr → Option PyStr
  | [] => none
  | name :: rest =>
    some (rest.foldl (fun best other => if other.length < best.length then other else best) name)

/-- `_match_gitnexus_repo`. -/
def matchGitnexusRepo (requested : PyStr) (available : List PyStr) : Option PyStr :=
  let req := strip requested
  if req = [] then none
  else
    (repoMatchAliases std req).findSome? fun known =>
      (available.find? fun name => lower std.toStdlib name = known).or
        ((available.find? fun name =>
            (py "__" ++ known) <:+ lower std.toStdlib name ||
              (py "/" ++ known) <:+ lower std.toStdlib name ||
              (py "\\" ++ known) <:+ lower std.toStdlib name).or
          (shortest (available.filter fun name =>
            known ∈ repoPathTokens std (lower std.toStdlib name))))

/-- Append a name that is not blank and not there yet. -/
def addValue (names : List PyStr) (value : Json) : List PyStr :=
  addName names (textOf std.toStdlib value)

/-- The line shows a name: a single word that is not too long. -/
def listedName (line : PyStr) : Option PyStr :=
  let shown := unbulleted line
  if shown = [] ∨ CodePoint.ofChar ' ' ∈ shown ∨ 120 ≤ shown.length then none else some shown

mutual

/-- `_extract_repo_names`. -/
def extractRepoNames : Json → List PyStr
  | .arr items => items.foldl (fun names item =>
    match item with
    | .str text => addValue std names (.str text)
    | .obj fields => addValue std names (firstField fields ["name", "repo", "id", "label"])
    | _ => names) []
  | .obj fields =>
    let nested : Dict PyStr (List PyStr) := nestedNames fields
    let names := [py "repos", py "repositories", py "items", py "result"].flatMap fun key =>
      (nested.get? key).getD []
    match fieldOf fields "text" with
    | .str text => ((splitLines text).filterMap listedName).foldl addName names
    | _ => names
  | _ => []

/-- The names in the values of the fields. -/
def nestedNames : List (PyStr × Json) → List (PyStr × List PyStr)
  | [] => []
  | (key, value) :: rest => (key, extractRepoNames value) :: nestedNames rest

end

/-- `_repo_missing`. -/
def repoMissing (payload : GraphPayload) : Bool :=
  let nested :=
    match payload.result with
    | .obj fields => textOf std.toStdlib (fieldOf fields "error")
    | _ => []
  let blob := lower std.toStdlib
    (join (py " ") [payload.stderr, payload.stdout, payload.error.getD [], nested])
  occurs "not found" blob && occurs "available" blob

end Repositories

/-! ## Searching -/

namespace GitNexus

variable (gitnexus : GitNexus)

def ask (call : GitNexusCall) : Session GitNexusCommandResult :=
  fun state =>
    .ok (gitnexus.answer state.asked call, { state with asked := state.asked ++ [call] })

/-- `_listed_repo_names`. -/
def listedRepoNames (forceRefresh : Bool) : Session (List PyStr) := do
  let state ← get
  if state.repoNames ≠ [] ∧ forceRefresh = false then pure state.repoNames
  else
    let listed ← gitnexus.ask .list
    let names := extractRepoNames gitnexus.std listed.data
    modify fun state => { state with repoNames := names }
    pure names

/-- `_canonical_repo`. -/
def canonicalRepo (repo : Option PyStr) (forceRefresh : Bool) : Session (Option PyStr) :=
  let requested := strip (repo.getD [])
  if requested = [] then pure none
  else do
    let available ← gitnexus.listedRepoNames forceRefresh
    pure (some (((matchGitnexusRepo gitnexus.std requested available).bind someText).getD
      requested))

section Search

variable (kind : SearchKind) (file : Option PyStr)

def query (symbol : PyStr) (repo uid label : Option PyStr) : Session GraphPayload := do
  let result ← gitnexus.ask (.search kind symbol repo file uid)
  pure (wrap result symbol label uid)

/-- Ask once more under the canonical name, if the repository is missing. -/
def retryMissing (candidate : PyStr) (resolved hint : Option PyStr) (payload : GraphPayload) :
    Session (Option PyStr × GraphPayload) :=
  if repoMissing gitnexus.std payload then do
    match ← gitnexus.canonicalRepo hint true with
    | none => pure (resolved, payload)
    | some alt =>
      if some alt = resolved then pure (resolved, payload)
      else
        let again ← gitnexus.query kind file candidate (some alt) none (some alt)
        pure (some alt, again)
  else pure (resolved, payload)

/-- Ask for the picked one of several symbols. -/
def queryPicked (symbol : PyStr) (repo : Option PyStr) (payload : GraphPayload) (pick : Fields) :
    Session GraphPayload := do
  let std := gitnexus.std.toStdlib
  let uid := someText (strip (textOf std (fieldOf pick "uid")))
  let picked := someText (strip (truthyText std
    [some (fieldOf pick "filePath"), some (fieldOf pick "file"), file.map Json.str]))
  let resolved ← gitnexus.query kind picked symbol repo uid repo
  pure (if resolved.ok then resolved else payload)

/-- `_resolve_ambiguous`. -/
def resolveAmbiguous (symbol : PyStr) (repo : Option PyStr) (payload : GraphPayload) :
    Session GraphPayload :=
  match payload.result with
  | .obj fields =>
    if statusIs gitnexus.std fields "ambiguous" then do
      match ← stateless (pickAmbiguousCandidate gitnexus.std (fieldOf fields "candidates")
          symbol file) with
      | none => pure payload
      | some pick => gitnexus.queryPicked kind file symbol repo payload pick
    else pure payload
  | _ => pure payload

/-- One candidate: the query, the retry and the resolution.  An impact search refreshes the name
it was given, a context search the one that was asked for. -/
def attempt (candidate : PyStr) (repo original resolved : Option PyStr) :
    Session (Option PyStr × GraphPayload) := do
  let asked := if kind = .impact then repo else original
  let hint := if kind = .impact then repo else orText original resolved
  let first ← gitnexus.query kind file candidate resolved none (orText resolved asked)
  let retried ← gitnexus.retryMissing kind file candidate resolved hint first
  let payload ← gitnexus.resolveAmbiguous kind file candidate (orText retried.1 asked) retried.2
  pure (retried.1, payload)

/-- The answer can be used and does not identify another class. -/
def accepts (symbol : PyStr) (payload : GraphPayload) : Except PyError Bool :=
  (graphHitUsable gitnexus.std payload.result).map fun usable =>
    usable && resultMatchesSymbol gitnexus.std payload.result symbol

/-- The loop of `_impact_once` and `_context_once`. -/
def searchLoop (symbol : PyStr) (repo original : Option PyStr) :
    List PyStr → Option PyStr → Option GraphPayload → Session GraphPayload
  | [], _, last => pure (last.getD (.failed "symbol is required"))
  | candidate :: rest, resolved, _ => do
    let tried ← gitnexus.attempt kind file candidate repo original resolved
    if ← stateless (gitnexus.accepts symbol tried.2) then pure tried.2
    else searchLoop symbol repo original rest tried.1 (some tried.2)

def searchOnce (symbol : PyStr) (repo original : Option PyStr) : Session GraphPayload :=
  gitnexus.searchLoop kind file symbol repo original (symbolCandidates gitnexus.std symbol) repo
    none

/-- Search without a repository, if the answer of the repository does not fit. -/
def fallBack (symbol : PyStr) (found : GraphPayload) : Session GraphPayload := do
  if ← stateless (gitnexus.accepts symbol found) then pure found
  else
    let elsewhere ← gitnexus.searchOnce kind file symbol none none
    if ← stateless (gitnexus.accepts symbol elsewhere) then
      pure { elsewhere with repoFallback := true }
    else pure found

/-- `impact` and `context`. -/
def search (symbol : PyStr) (repo : Option PyStr) : Session GraphPayload :=
  if !gitnexus.enabled then pure (.failed "gitnexus unavailable")
  else if strip symbol = [] then pure (.failed "symbol is required")
  else do
    let resolved ← gitnexus.canonicalRepo repo false
    let found ← gitnexus.searchOnce kind file (strip symbol) resolved repo
    match resolved with
    | none => pure found
    | some _ => gitnexus.fallBack kind file (strip symbol) found

end Search

/-! ## Callers -/

/-- The payloads that a report carries; the callers come from the last one. -/
inductive CallersRaw where
  | impact (impact : GraphPayload)
  | context (impact context : GraphPayload)

def CallersRaw.source : CallersRaw → GraphPayload
  | impact payload => payload
  | context _ payload => payload

structure CallersReport where
  ok : Bool
  symbol : PyStr
  repo : Option PyStr
  staticCallers : List Caller
  raw : Option CallersRaw
  error : Option PyStr

section Callers

variable (repo file : Option PyStr) (maxDepth : ℤ) (symbol : PyStr)

/-- `str(payload.get("stderr") or payload.get("error") or "")`. -/
def failureText (payload : GraphPayload) : PyStr :=
  if payload.stderr = [] then payload.error.getD [] else payload.stderr

def found (candidate : PyStr) (callers : List Caller) (raw : CallersRaw) : CallersReport where
  ok := true
  symbol := candidate
  repo := repo
  staticCallers := callers
  raw := some raw
  error := none

def notFound (lastError : PyStr) : CallersReport where
  ok := false
  symbol := symbol
  repo := repo
  staticCallers := []
  raw := none
  error := some (if lastError = [] then py "no callers found in knowledge graph" else lastError)

/-- The callers of one candidate: of the impact query, else of the context query. -/
def callersOfCandidate (candidate : PyStr) (impact : GraphPayload) :
    Session (Option CallersReport) := do
  match ← stateless (extractCallersFromImpact gitnexus.std impact.result maxDepth) with
  | caller :: callers => pure (some (found repo candidate (caller :: callers) (.impact impact)))
  | [] =>
    let context ← gitnexus.search .context file candidate repo
    match ← stateless (extractCallersFromContext gitnexus.std context.result maxDepth) with
    | caller :: callers =>
      pure (some (found repo candidate (caller :: callers) (.context impact context)))
    | [] => pure none

def callersLoop : List PyStr → PyStr → Session CallersReport
  | [], lastError => pure (notFound repo symbol lastError)
  | candidate :: rest, lastError => do
    let impact ← gitnexus.search .impact file candidate repo
    if !impact.ok then callersLoop rest (failureText impact)
    else
      match ← gitnexus.callersOfCandidate repo file maxDepth candidate impact with
      | some report => pure report
      | none => callersLoop rest lastError

/-- `callers_for_symbol`. -/
def callersForSymbol : Session CallersReport :=
  gitnexus.callersLoop repo file maxDepth symbol (symbolCandidates gitnexus.std symbol) []

end Callers

end GitNexus

end RootSeeker.CodeIndex
