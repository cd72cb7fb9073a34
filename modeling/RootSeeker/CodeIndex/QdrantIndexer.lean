import RootSeeker.CodeIndex.RepoSync

/-!
# Indexing chunks into Qdrant

The vectors of all repositories share one collection, which maps the id of a
point to its vector and payload.  Each HTTP call has its number; a call that
fails changes nothing, one that succeeds takes effect completely.
-/

namespace RootSeeker.CodeIndex

open Python

variable {V : Type}

structure CodeChunk where
  repo : PyStr
  path : PyStr
  language : PyStr
  startLine : ℤ
  endLine : ℤ
  content : PyStr
  sha256 : PyStr
  symbol : Option PyStr
  symbolKind : Option PyStr

def CodeChunk.stableKey (chunk : CodeChunk) : PyStr :=
  join (py ":") [chunk.repo, chunk.path, intText chunk.startLine, intText chunk.endLine,
    chunk.symbol.getD [], chunk.sha256]

/-! ## The server -/

structure Point (V : Type) where
  vector : V
  payload : Fields

/-- The filter `{"key": "repo", "match": {"value": repo_name}}`. -/
def Point.ofRepo (repoName : PyStr) (point : Point V) : Bool :=
  match point.payload.get? (py "repo") with
  | some (.str repo) => repo = repoName
  | _ => false

abbrev Points (V : Type) := PyStr → Option (Point V)

/-- Insert points, replacing those with the same id. -/
def Points.upsert (points : Points V) (entries : List (PyStr × Point V)) : Points V :=
  entries.foldl (fun points entry => Function.update points entry.1 (some entry.2)) points

def Points.deleteRepo (points : Points V) (repoName : PyStr) : Points V :=
  fun id => (points id).filter fun point => !point.ofRepo repoName

/-- A collection; the size of its vectors is unknown where it has another layout. -/
structure Collection (V : Type) where
  size : Option ℕ
  points : Points V

/-- An exception of a call: one of the HTTP client, or another one. -/
inductive HttpError where
  | httpError (text : PyStr)
  | other (text : PyStr)

def HttpError.text : HttpError → PyStr
  | .httpError text => text
  | .other text => text

/-- The server, and how many calls it has seen. -/
structure Qdrant (V : Type) where
  collection : Option (Collection V)
  calls : ℕ

/-- Which calls fail, and how. -/
abbrev Failures := ℕ → Option HttpError

namespace Qdrant

variable (failures : Failures) (server : Qdrant V)

def call (effect : Option (Collection V) → Option (Collection V)) :
    Except HttpError Unit × Qdrant V :=
  match failures server.calls with
  | some error => (.error error, { server with calls := server.calls + 1 })
  | none => (.ok (), { collection := effect server.collection, calls := server.calls + 1 })

end Qdrant

/-! ## The indexer -/

structure QdrantIndexer (V : Type) where
  collectionName : PyStr
  dimension : ℕ
  embedDocuments : List PyStr → Except PyStr (List V)
  /-- `uuid.uuid5(uuid.NAMESPACE_URL, key)`. -/
  uuid5 : PyStr → PyStr

/-- `except httpx.HTTPError: return False`. -/
def catchHttpError (result : Except HttpError Bool × Qdrant V) :
    Except HttpError Bool × Qdrant V :=
  match result.1 with
  | .error (.httpError _) => (.ok false, result.2)
  | _ => result

namespace QdrantIndexer

variable (indexer : QdrantIndexer V) (failures : Failures)

def createCollection (server : Qdrant V) : Except HttpError Bool × Qdrant V :=
  let created := server.call failures fun _ =>
    some { size := some indexer.dimension, points := fun _ => none }
  (created.1.map fun _ => true, created.2)

def ensureCollection (server : Qdrant V) : Except HttpError Bool × Qdrant V :=
  catchHttpError <|
    let found := server.call failures id
    match found.1, found.2.collection with
    | .error error, _ => (.error error, found.2)
    | .ok _, none => indexer.createCollection failures found.2
    | .ok _, some collection =>
      if collection.size = some indexer.dimension then (.ok true, found.2)
      else
        let deleted := found.2.call failures fun _ => none
        match deleted.1 with
        | .error error => (.error error, deleted.2)
        | .ok _ => indexer.createCollection failures deleted.2

def pointId (chunk : CodeChunk) : PyStr :=
  indexer.uuid5 chunk.stableKey

/-- Delete all points of a repository before re-indexing. -/
def deleteRepo (repoName : PyStr) (server : Qdrant V) : Except HttpError Bool × Qdrant V :=
  catchHttpError <|
    let ensured := indexer.ensureCollection failures server
    match ensured.1 with
    | .error error => (.error error, ensured.2)
    | .ok false => (.ok false, ensured.2)
    | .ok true =>
      let deleted := ensured.2.call failures fun collection =>
        collection.map fun collection =>
          { collection with points := collection.points.deleteRepo repoName }
      (deleted.1.map fun _ => true, deleted.2)

def embedText (chunk : CodeChunk) : PyStr :=
  match chunk.symbol with
  | some (c :: symbol) => join (py "\n") [chunk.path, c :: symbol, chunk.content]
  | _ => join (py "\n") [chunk.path, chunk.content]

/-- An optional text of the payload, left out when it is falsy. -/
def optionalField (key : String) (value : Option PyStr) : Fields :=
  match value with
  | some (c :: text) => [(py key, .str (c :: text))]
  | _ => []

def chunkPayload (repoName : PyStr) (chunk : CodeChunk) : Fields :=
  [(py "repo", .str repoName), (py "path", .str chunk.path), (py "language", .str chunk.language),
    (py "start_line", .int chunk.startLine), (py "end_line", .int chunk.endLine),
    (py "sha256", .str chunk.sha256), (py "content_preview", .str (chunk.content.take 500))] ++
    optionalField "symbol" chunk.symbol ++ optionalField "symbol_kind" chunk.symbolKind

def chunkPoint (repoName : PyStr) (chunk : CodeChunk) (embedding : V) : PyStr × Point V :=
  (indexer.pointId chunk,
    { vector := embedding, payload := chunkPayload repoName chunk })

def batchSize : ℕ := 128

/-- `points[start : start + batch_size]` for the starts in `range(0, len(points), batch_size)`. -/
def batches {α : Type} (points : List α) : List (List α) :=
  (List.range ((points.length + (batchSize - 1)) / batchSize)).map fun number =>
    (points.drop (batchSize * number)).take batchSize

def uploadBatches : List (List (PyStr × Point V)) → Qdrant V → Except HttpError Unit × Qdrant V
  | [], server => (.ok (), server)
  | batch :: rest, server =>
    let uploaded := server.call failures fun collection =>
      collection.map fun collection =>
        { collection with points := collection.points.upsert batch }
    match uploaded.1 with
    | .error error => (.error error, uploaded.2)
    | .ok _ => uploadBatches rest uploaded.2

def notReady (error : PyStr) : IndexStatus where
  kind := .qdrant
  ready := false
  detail := [(py "error", .str error)]

/-- The points of all chunks, or why there are none. -/
def chunkPoints (repoName : PyStr) (chunks : List CodeChunk) :
    Except PyStr (List (PyStr × Point V)) :=
  match indexer.embedDocuments (chunks.map embedText) with
  | .error text => .error text
  | .ok embeddings =>
    if embeddings.length ≠ chunks.length then
      .error (py "embedding count mismatch: chunks=" ++ decimal chunks.length ++
        py " embeddings=" ++ decimal embeddings.length)
    else .ok (List.zipWith (indexer.chunkPoint repoName) chunks embeddings)

/-- The upload of all points after the deletion of the old ones. -/
def uploadPoints (repoName : PyStr) (points : List (PyStr × Point V)) (server : Qdrant V) :
    IndexStatus × Qdrant V :=
  let deleted := indexer.deleteRepo failures repoName server
  match deleted.1 with
  | .error error => (notReady error.text, deleted.2)
  | .ok _ =>
    let uploaded := uploadBatches failures (batches points) deleted.2
    match uploaded.1 with
    | .error error => (notReady error.text, uploaded.2)
    | .ok _ =>
      ({ kind := .qdrant
         ready := true
         detail :=
          [(py "collection", .str indexer.collectionName),
            (py "chunks_indexed", .int points.length),
            (py "embedding_dimension", .int indexer.dimension)] }, uploaded.2)

def indexChunks (repoName : PyStr) (chunks : List CodeChunk) (server : Qdrant V) :
    IndexStatus × Qdrant V :=
  let ensured := indexer.ensureCollection failures server
  match ensured.1 with
  | .error error => (notReady error.text, ensured.2)
  | .ok false => (notReady (py "Failed to ensure collection"), ensured.2)
  | .ok true =>
    if chunks.isEmpty then
      let deleted := indexer.deleteRepo failures repoName ensured.2
      match deleted.1 with
      | .error error => (notReady error.text, deleted.2)
      | .ok _ =>
        ({ kind := .qdrant
           ready := true
           detail := [(py "chunks_indexed", .int 0),
            (py "message", .str (py "no indexable chunks"))] }, deleted.2)
    else
      match indexer.chunkPoints repoName chunks with
      | .error text => (notReady text, ensured.2)
      | .ok points => indexer.uploadPoints failures repoName points ensured.2

end QdrantIndexer

end RootSeeker.CodeIndex
