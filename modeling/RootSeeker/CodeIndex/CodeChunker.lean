import RootSeeker.CodeIndex.QdrantIndexer
import RootSeeker.CodeIndex.SymbolSpans
import RootSeeker.Core.Segments

/-!
# Cutting a source file into chunks

The lines of every symbol, and the lines between the symbols, are cut into
overlapping windows; each window with enough text becomes a chunk.
-/

namespace RootSeeker.CodeIndex

open Python Segments

structure ChunkConfig where
  maxLines : ℤ
  overlapLines : ℤ
  minChars : ℤ

namespace ChunkConfig

def size (config : ChunkConfig) : ℕ :=
  (max 1 config.maxLines).toNat

def overlap (config : ChunkConfig) : ℕ :=
  (max 0 (min config.overlapLines (config.size - 1))).toNat

def step (config : ChunkConfig) : ℕ :=
  max 1 (config.size - config.overlap)

end ChunkConfig

structure CodeFile where
  path : PyStr
  content : PyStr
  language : PyStr
  sha256 : PyStr

section Chunks

variable (repoName : PyStr) (file : CodeFile) (lines : List PyStr) (config : ChunkConfig)

/-- A named symbol, or the anonymous lines of a gap. -/
structure LineRange where
  startLine : ℕ
  endLine : ℕ
  symbol : Option PyStr
  symbolKind : Option PyStr

def SymbolSpan.range (span : SymbolSpan) : LineRange where
  startLine := span.startLine
  endLine := span.endLine
  symbol := some span.name
  symbolKind := some span.kind

def anonymousRange (gap : ℕ × ℕ) : LineRange where
  startLine := gap.1
  endLine := gap.2
  symbol := none
  symbolKind := none

def LineRange.segment (range : LineRange) : List PyStr :=
  (lines.drop (range.startLine - 1)).take (range.endLine + 1 - range.startLine)

/-- The chunk of one window of a range, counted from the start of the range. -/
def chunkOf (range : LineRange) (window : ℕ × ℕ) : Option CodeChunk :=
  let piece := ((range.segment lines).take window.2).drop window.1
  let content := strip (join (py "\n") piece)
  if config.minChars ≤ content.length then
    some
      { repo := repoName
        path := file.path
        language := file.language
        startLine := range.startLine + window.1
        endLine := range.startLine + window.2 - 1
        content := content
        sha256 := file.sha256
        symbol := range.symbol
        symbolKind := range.symbolKind }
  else none

/-- `_window_range`. -/
def windowRange (range : LineRange) : List CodeChunk :=
  (windows (range.segment lines).length config.size config.step 0).filterMap
    (chunkOf repoName file lines config range)

end Chunks

/-- The line is inside one of the spans. -/
def covered (spans : List SymbolSpan) (line : ℕ) : Bool :=
  spans.any fun span => span.startLine ≤ line && line ≤ span.endLine

/-- By the first line, the last line and the symbol. -/
def chunkBefore (left right : CodeChunk) : Bool :=
  left.startLine < right.startLine || (left.startLine = right.startLine &&
    (left.endLine < right.endLine || (left.endLine = right.endLine &&
      decide (left.symbol.getD [] ≤ right.symbol.getD []))))

/-- `chunk_code_file`. -/
def chunkCodeFile (std : Stdlib) (wordChar : CodePoint → Bool) (repoName : PyStr)
    (file : CodeFile) (config : ChunkConfig) : List CodeChunk :=
  let lines := splitLines file.content
  let chunks := windowRange repoName file lines config
  if lines = [] then []
  else
    let spans := extractSymbolSpans std wordChar lines file.language
    if spans = [] then chunks (anonymousRange (1, lines.length))
    else
      (spans.flatMap (fun span => chunks span.range) ++
        (gapsFrom (covered spans) none 1 lines.length).flatMap
          fun gap => chunks (anonymousRange gap)).mergeSort chunkBefore

end RootSeeker.CodeIndex
