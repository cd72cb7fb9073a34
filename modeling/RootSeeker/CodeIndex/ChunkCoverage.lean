import RootSeeker.CodeIndex.CodeChunker
import RootSeeker.CodeIndex.SpanBounds
import RootSeeker.Core.Framing

/-!
# What the chunks of a file cover

The chunks lie inside the file and cover its text.  Their keys are distinct unless
two symbols of one name share a window.
-/

namespace RootSeeker.CodeIndex

open Python Segments

/-! ## Keys -/

/-- Chunks of one file have the same key when their lines and symbol are the same. -/
theorem stableKey_eq_iff {left right : CodeChunk} (hrepo : left.repo = right.repo)
    (hpath : left.path = right.path) (hsha : left.sha256 = right.sha256) :
    left.stableKey = right.stableKey ↔ left.startLine = right.startLine ∧
      left.endLine = right.endLine ∧ left.symbol.getD [] = right.symbol.getD [] := by
  have hkey : ∀ chunk : CodeChunk, chunk.stableKey = chunk.repo ++ (py ":" ++ (chunk.path ++
      (py ":" ++ (intText chunk.startLine ++ (colonChar :: (intText chunk.endLine ++
        (colonChar :: (chunk.symbol.getD [] ++ (py ":" ++ chunk.sha256))))))))) :=
    fun chunk => by simp [CodeChunk.stableKey, join, List.intercalate, py, colonChar]
  have hdecimal : ∀ {first other : ℤ} {rest otherRest : PyStr},
      intText first ++ colonChar :: rest = intText other ++ colonChar :: otherRest →
        first = other ∧ rest = otherRest := by
    intro first other rest otherRest heq
    have hfree : ∀ value : ℤ, ∀ c ∈ intText value, decide (c ≠ colonChar) = true :=
      fun value c hc => decide_eq_true fun hcolon => colon_not_mem_intText value (hcolon ▸ hc)
    obtain ⟨hsame, hrest⟩ := Framing.append_inj_of_class (hfree first) (hfree other)
      (by simp) (by simp) heq
    exact ⟨intText_injective hsame, (List.cons.inj hrest).2⟩
  constructor
  · intro heq
    rw [hkey, hkey, hrepo, hpath, hsha] at heq
    have hlines := List.append_cancel_left (List.append_cancel_left
      (List.append_cancel_left (List.append_cancel_left heq)))
    obtain ⟨hstart, hlater⟩ := hdecimal hlines
    obtain ⟨hend, hsymbol⟩ := hdecimal hlater
    exact ⟨hstart, hend, List.append_cancel_right hsymbol⟩
  · rintro ⟨hstart, hend, hsymbol⟩
    rw [hkey, hkey, hrepo, hpath, hsha, hstart, hend, hsymbol]

/-- The stripped text of the lines from `first` to `last`, counted from one. -/
def textOfLines (lines : List PyStr) (first last : ℕ) : PyStr :=
  strip (join (py "\n") ((lines.take last).drop (first - 1)))

section Ranges

variable (repoName : PyStr) (file : CodeFile) (lines : List PyStr) (config : ChunkConfig)

def LineRange.Inside (range : LineRange) : Prop :=
  1 ≤ range.startLine ∧ range.startLine ≤ range.endLine ∧ range.endLine ≤ lines.length

/-- The range has a window from `first` to `last`, with enough text. -/
def LineRange.Window (range : LineRange) (first last : ℕ) : Prop :=
  config.minChars ≤ (textOfLines lines first last).length ∧
    ∃ window, IsWindow (range.endLine + 1 - range.startLine) config.size config.step 0 window ∧
      first = range.startLine + window.1 ∧ last = range.startLine + window.2 - 1

/-- The chunk of the lines from `first` to `last` of a range. -/
def LineRange.chunk (range : LineRange) (first last : ℕ) : CodeChunk where
  repo := repoName
  path := file.path
  language := file.language
  startLine := first
  endLine := last
  content := textOfLines lines first last
  sha256 := file.sha256
  symbol := range.symbol
  symbolKind := range.symbolKind

end Ranges

section Windows

variable {repoName : PyStr} {file : CodeFile} {lines : List PyStr} {config : ChunkConfig}
  {range : LineRange}

theorem ChunkConfig.size_pos : 1 ≤ config.size := by
  rw [ChunkConfig.size]
  omega

theorem ChunkConfig.step_pos : 1 ≤ config.step := le_max_left _ _

theorem ChunkConfig.step_le : config.step ≤ config.size :=
  max_le ChunkConfig.size_pos (Nat.sub_le _ _)

theorem bounds_of_window {length : ℕ} {window : ℕ × ℕ}
    (hwindow : window ∈ windows length config.size config.step 0) :
    window.1 < window.2 ∧ window.2 ≤ length ∧ window.2 ≤ window.1 + config.size :=
  (bounds_of_mem_windows ChunkConfig.step_pos ChunkConfig.size_pos hwindow).2

theorem LineRange.length_segment (hinside : range.Inside lines) :
    (range.segment lines).length = range.endLine + 1 - range.startLine := by
  obtain ⟨hstart, hle, hend⟩ := hinside
  rw [LineRange.segment, List.length_take, List.length_drop]
  omega

/-- A piece of the segment is the lines of the file that it is cut from. -/
theorem LineRange.piece_segment (hinside : range.Inside lines) {start stop : ℕ}
    (hstop : stop ≤ (range.segment lines).length) :
    ((range.segment lines).take stop).drop start =
      (lines.take (range.startLine + stop - 1)).drop (range.startLine + start - 1) := by
  rw [LineRange.length_segment hinside] at hstop
  obtain ⟨hstart, hle, hend⟩ := hinside
  have hlast : range.startLine - 1 + stop = range.startLine + stop - 1 := by omega
  have hfirst : range.startLine - 1 + start = range.startLine + start - 1 := by omega
  calc ((range.segment lines).take stop).drop start
      = ((lines.drop (range.startLine - 1)).take stop).drop start := by
        rw [LineRange.segment, List.take_take, min_eq_left hstop]
    _ = ((lines.take (range.startLine - 1 + stop)).drop (range.startLine - 1)).drop start := by
        rw [List.take_drop]
    _ = _ := by rw [List.drop_drop, hlast, hfirst]

theorem chunkOf_eq (hinside : range.Inside lines) {window : ℕ × ℕ}
    (hlt : window.1 < window.2) (hto : window.2 ≤ (range.segment lines).length) :
    chunkOf repoName file lines config range window =
      if config.minChars ≤ (textOfLines lines (range.startLine + window.1)
          (range.startLine + window.2 - 1)).length then
        some (range.chunk repoName file lines (range.startLine + window.1)
          (range.startLine + window.2 - 1))
      else none := by
  have hlast : ((range.startLine + window.2 - 1 : ℕ) : ℤ) =
      range.startLine + window.2 - 1 := by omega
  rw [chunkOf, LineRange.piece_segment hinside hto, LineRange.chunk, textOfLines, hlast]
  rfl

theorem LineRange.stableKey_eq_iff {other : LineRange} {first last otherFirst otherLast : ℕ} :
    (range.chunk repoName file lines first last).stableKey =
        (other.chunk repoName file lines otherFirst otherLast).stableKey ↔
      first = otherFirst ∧ last = otherLast ∧ range.symbol.getD [] = other.symbol.getD [] := by
  have hkey : (range.chunk repoName file lines first last).stableKey =
        (other.chunk repoName file lines otherFirst otherLast).stableKey ↔
      (first : ℤ) = otherFirst ∧ (last : ℤ) = otherLast ∧
        range.symbol.getD [] = other.symbol.getD [] :=
    CodeIndex.stableKey_eq_iff rfl rfl rfl
  rw [hkey, Int.natCast_inj, Int.natCast_inj]

/-- The chunks of a range are those of its windows. -/
theorem mem_windowRange_iff (hinside : range.Inside lines) {chunk : CodeChunk} :
    chunk ∈ windowRange repoName file lines config range ↔
      ∃ first last, range.Window lines config first last ∧
        chunk = range.chunk repoName file lines first last := by
  have hlength := LineRange.length_segment hinside
  rw [windowRange, List.mem_filterMap]
  constructor
  · rintro ⟨window, hwindow, hchunk⟩
    obtain ⟨hlt, hto, _⟩ := bounds_of_window hwindow
    rw [chunkOf_eq hinside hlt hto] at hchunk
    split at hchunk
    · rename_i htext
      rw [mem_windows_iff ChunkConfig.step_pos, hlength] at hwindow
      exact ⟨_, _, ⟨htext, window, hwindow, rfl, rfl⟩, (Option.some.inj hchunk).symm⟩
    · exact absurd hchunk (by simp)
  · rintro ⟨_, _, ⟨htext, window, hwindow, rfl, rfl⟩, rfl⟩
    rw [← hlength, ← mem_windows_iff ChunkConfig.step_pos] at hwindow
    obtain ⟨hlt, hto, _⟩ := bounds_of_window hwindow
    exact ⟨window, hwindow, by rw [chunkOf_eq hinside hlt hto, if_pos htext]⟩

/-- The lines of a window are lines of its range. -/
theorem LineRange.Window.bounds (hinside : range.Inside lines) {first last : ℕ}
    (hwindow : range.Window lines config first last) :
    range.startLine ≤ first ∧ first ≤ last ∧ last ≤ range.endLine ∧
      last + 1 ≤ first + config.size := by
  obtain ⟨_, window, hwindow, rfl, rfl⟩ := hwindow
  obtain ⟨hstart, hle, hend⟩ := hinside
  obtain ⟨hlt, hto, hsize⟩ := bounds_of_window ((mem_windows_iff ChunkConfig.step_pos).mpr hwindow)
  omega

/-- The keys of the chunks of one range are distinct. -/
theorem windowRange_pairwise (hinside : range.Inside lines) :
    (windowRange repoName file lines config range).Pairwise
      fun left right => left.stableKey ≠ right.stableKey := by
  rw [windowRange, List.pairwise_filterMap]
  refine List.Pairwise.imp_of_mem ?_ (windows_pairwise ChunkConfig.step_pos ChunkConfig.size_pos)
  intro left right hleft hright hlt first hfirst second hsecond heq
  obtain ⟨hltLeft, htoLeft, _⟩ := bounds_of_window hleft
  obtain ⟨hltRight, htoRight, _⟩ := bounds_of_window hright
  rw [chunkOf_eq hinside hltLeft htoLeft, Option.ite_none_right_eq_some] at hfirst
  rw [chunkOf_eq hinside hltRight htoRight, Option.ite_none_right_eq_some] at hsecond
  obtain ⟨_, hfirst⟩ := hfirst
  obtain ⟨_, hsecond⟩ := hsecond
  obtain rfl := Option.some.inj hfirst
  obtain rfl := Option.some.inj hsecond
  have hstart := ((LineRange.stableKey_eq_iff).mp heq).1
  omega

/-- Two ranges of one symbol have the same window. -/
def LineRange.SharesWindow (lines : List PyStr) (config : ChunkConfig) (left right : LineRange) :
    Prop :=
  left.symbol.getD [] = right.symbol.getD [] ∧
    ∃ first last, left.Window lines config first last ∧ right.Window lines config first last

theorem windowRange_disjoint_iff {other : LineRange} (hinside : range.Inside lines)
    (hother : other.Inside lines) :
    (∀ left ∈ windowRange repoName file lines config range,
        ∀ right ∈ windowRange repoName file lines config other,
          left.stableKey ≠ right.stableKey) ↔
      ¬range.SharesWindow lines config other := by
  constructor
  · rintro hdistinct ⟨hsymbol, first, last, hfirst, hsecond⟩
    exact hdistinct _ ((mem_windowRange_iff hinside).mpr ⟨first, last, hfirst, rfl⟩) _
      ((mem_windowRange_iff hother).mpr ⟨first, last, hsecond, rfl⟩)
      (LineRange.stableKey_eq_iff.mpr ⟨rfl, rfl, hsymbol⟩)
  · intro hshared left hleft right hright heq
    obtain ⟨first, last, hfirst, rfl⟩ := (mem_windowRange_iff hinside).mp hleft
    obtain ⟨_, _, hsecond, rfl⟩ := (mem_windowRange_iff hother).mp hright
    obtain ⟨rfl, rfl, hsymbol⟩ := LineRange.stableKey_eq_iff.mp heq
    exact hshared ⟨hsymbol, first, last, hfirst, hsecond⟩

/-- Lines with text among them make a text. -/
theorem textOfLines_ne_nil {first last index : ℕ} (hfirst : first ≤ index + 1)
    (hlast : index + 1 ≤ last) (htext : strip (lines.getD index []) ≠ []) :
    textOfLines lines first last ≠ [] := by
  obtain ⟨c, hc, hkept⟩ := stripBy_ne_nil_iff.mp htext
  have hlt : index < lines.length := by
    by_contra hle
    rw [List.getD_eq_default _ _ (not_lt.mp hle)] at hc
    exact absurd hc List.not_mem_nil
  have hline : lines.getD index [] ∈ (lines.take last).drop (first - 1) := by
    rw [List.getD_eq_getElem _ _ hlt, List.mem_drop_iff_getElem]
    have hsum : index - (first - 1) + (first - 1) = index := by omega
    have htake : index < (lines.take last).length := by
      rw [List.length_take]
      omega
    exact ⟨index - (first - 1), by omega, by simp [Nat.add_comm (first - 1), hsum]⟩
  exact stripBy_ne_nil_iff.mpr ⟨c, mem_join_of_mem hline hc, hkept⟩

/-- A line with text gives every range that holds it a chunk that holds it. -/
theorem exists_chunk_of_line (hmin : config.minChars ≤ 1) (hinside : range.Inside lines)
    {index : ℕ} (htext : strip (lines.getD index []) ≠ [])
    (hfrom : range.startLine ≤ index + 1) (hto : index + 1 ≤ range.endLine) :
    ∃ first last, range.Window lines config first last ∧ first ≤ index + 1 ∧ index + 1 ≤ last := by
  obtain ⟨hstart, hle, hend⟩ := hinside
  obtain ⟨window, hwindow, hfirst, hlast⟩ :=
    @exists_window (range.endLine + 1 - range.startLine) config.size config.step 0
      ChunkConfig.step_pos ChunkConfig.step_le (index + 1 - range.startLine) (Nat.zero_le _)
      (by omega)
  obtain ⟨hlt, hstop, _⟩ := bounds_of_window hwindow
  have hlength := List.length_pos_iff.mpr (textOfLines_ne_nil
    (show range.startLine + window.1 ≤ index + 1 by omega)
    (show index + 1 ≤ range.startLine + window.2 - 1 by omega) htext)
  exact ⟨_, _, ⟨by omega, window, (mem_windows_iff ChunkConfig.step_pos).mp hwindow, rfl, rfl⟩,
    by omega, by omega⟩

end Windows

/-! ## The chunks of a file -/

/-- What the chunks of a file should do. -/
structure CoverCompletely (lines : List PyStr) (config : ChunkConfig) (chunks : List CodeChunk) :
    Prop where
  covered : ∀ index < lines.length, strip (lines.getD index []) ≠ [] →
    ∃ chunk ∈ chunks, chunk.startLine ≤ index + 1 ∧ index + 1 ≤ chunk.endLine
  inside : ∀ chunk ∈ chunks, 1 ≤ chunk.startLine ∧ chunk.startLine ≤ chunk.endLine ∧
    chunk.endLine ≤ lines.length
  short : ∀ chunk ∈ chunks, chunk.endLine - chunk.startLine + 1 ≤ max 1 config.maxLines
  content : ∀ chunk ∈ chunks,
    chunk.content = textOfLines lines chunk.startLine.toNat chunk.endLine.toNat
  distinct : (chunks.map CodeChunk.stableKey).Nodup

/-- The ranges of the symbols and of the gaps between them. -/
def fileRanges (lines : List PyStr) (spans : List SymbolSpan) : List LineRange :=
  spans.map SymbolSpan.range ++
    (gapsFrom (covered spans) none 1 lines.length).map anonymousRange

section File

variable {std : Stdlib} {wordChar : CodePoint → Bool} {repoName : PyStr} {file : CodeFile}
  {lines : List PyStr} {spans : List SymbolSpan} {config : ChunkConfig}

/-- The chunks are those of all ranges, in some order. -/
theorem chunkCodeFile_perm :
    (chunkCodeFile std wordChar repoName file config).Perm
      ((fileRanges (splitLines file.content) (extractSymbolSpans std wordChar
        (splitLines file.content) file.language)).flatMap
          (windowRange repoName file (splitLines file.content) config)) := by
  have hspans := extractSymbolSpans_inside std wordChar (splitLines file.content) file.language
  generalize hall : extractSymbolSpans std wordChar (splitLines file.content) file.language =
    spans at hspans
  rw [chunkCodeFile, fileRanges, List.flatMap_append, List.flatMap_map, List.flatMap_map]
  dsimp only
  rw [hall]
  generalize splitLines file.content = lines at hspans
  split
  · rename_i hempty
    subst hempty
    have hnone : spans = [] := List.eq_nil_iff_forall_not_mem.mpr fun span hspan => by
      obtain ⟨hstart, hle, hend⟩ := hspans span hspan
      exact absurd (hstart.trans (hle.trans hend)) (by simp)
    rw [hnone]
    exact List.Perm.refl _
  · rename_i hlines
    split
    · rename_i hnone
      obtain ⟨line, rest, rfl⟩ := List.exists_cons_of_ne_nil hlines
      have hfree : ∀ position, covered [] position = false := fun _ => rfl
      have hgaps : gapsFrom (covered []) none 1 (line :: rest).length =
          [(1, (line :: rest).length)] := by
        rw [List.length_cons, gapsFrom, hfree, if_neg Bool.false_ne_true, Option.getD_none,
          gapsFrom_of_uncovered hfree]
        congr 2
        omega
      rw [hnone, hgaps, List.flatMap_nil, List.nil_append, List.flatMap_singleton]
    · exact List.mergeSort_perm _ _

theorem inside_of_mem_fileRanges (hspans : ∀ span ∈ spans, span.Inside lines.length) :
    ∀ range ∈ fileRanges lines spans, range.Inside lines := by
  intro range hrange
  cases List.mem_append.mp hrange with
  | inl hsymbol =>
    obtain ⟨span, hspan, rfl⟩ := List.mem_map.mp hsymbol
    exact hspans span hspan
  | inr hanonymous =>
    obtain ⟨gap, hgap, rfl⟩ := List.mem_map.mp hanonymous
    obtain ⟨hfrom, hle, hto, _⟩ := gap_of_mem openGap_none hgap
    exact ⟨hfrom, hle, by dsimp only [anonymousRange]; omega⟩

theorem covered_eq_true_iff {line : ℕ} :
    covered spans line = true ↔ ∃ span ∈ spans, span.startLine ≤ line ∧ line ≤ span.endLine := by
  simp [covered]

/-- Every line of the file is in a symbol or a gap. -/
theorem exists_range_of_line {index : ℕ} (hlt : index < lines.length) :
    ∃ range ∈ fileRanges lines spans, range.startLine ≤ index + 1 ∧ index + 1 ≤ range.endLine := by
  cases hcovered : covered spans (index + 1) with
  | true =>
    obtain ⟨span, hspan, hin⟩ := covered_eq_true_iff.mp hcovered
    exact ⟨span.range, List.mem_append_left _ (List.mem_map_of_mem hspan), hin⟩
  | false =>
    obtain ⟨gap, hgap, hin⟩ := @exists_gap (covered spans) none 1 lines.length (index + 1)
      (Nat.succ_le_succ (Nat.zero_le _)) (by omega) hcovered
    exact ⟨anonymousRange gap, List.mem_append_right _ (List.mem_map_of_mem hgap), hin⟩

/-- Only two symbols can share a window: gaps are apart from each other and from symbols. -/
theorem fileRanges_pairwise_iff (hspans : ∀ span ∈ spans, span.Inside lines.length) :
    ((fileRanges lines spans).Pairwise fun left right => ¬left.SharesWindow lines config right) ↔
      spans.Pairwise fun left right => ¬left.range.SharesWindow lines config right.range := by
  have hinside := inside_of_mem_fileRanges hspans
  rw [fileRanges, List.pairwise_append, List.pairwise_map]
  refine and_iff_left ⟨?_, ?_⟩
  · rw [List.pairwise_map]
    refine List.Pairwise.imp_of_mem ?_ (gaps_pairwise openGap_none)
    rintro left right hleft hright hlt ⟨_, first, last, hfirst, hsecond⟩
    have hone := hfirst.bounds (hinside _ (List.mem_append_right _ (List.mem_map_of_mem hleft)))
    have htwo := hsecond.bounds (hinside _ (List.mem_append_right _ (List.mem_map_of_mem hright)))
    dsimp only [anonymousRange] at hone htwo
    omega
  · intro symbolRange hsymbol gapRange hgap
    rintro ⟨_, first, last, hfirst, hsecond⟩
    have hone := hfirst.bounds (hinside _ (List.mem_append_left _ hsymbol))
    have htwo := hsecond.bounds (hinside _ (List.mem_append_right _ hgap))
    obtain ⟨span, hspan, rfl⟩ := List.mem_map.mp hsymbol
    obtain ⟨gap, hmem, rfl⟩ := List.mem_map.mp hgap
    have huncovered := (gap_of_mem openGap_none hmem).2.2.2 first htwo.1 (htwo.2.1.trans htwo.2.2.1)
    have hcovered : covered spans first = true :=
      covered_eq_true_iff.mpr ⟨span, hspan, hone.1, hone.2.1.trans hone.2.2.1⟩
    exact absurd (hcovered.symm.trans huncovered) (by simp)

/-- Every chunk is the one of a window of some range. -/
theorem mem_chunkCodeFile_iff {chunk : CodeChunk} :
    chunk ∈ chunkCodeFile std wordChar repoName file config ↔
      ∃ range ∈ fileRanges (splitLines file.content) (extractSymbolSpans std wordChar
          (splitLines file.content) file.language),
        ∃ first last, range.Window (splitLines file.content) config first last ∧
          chunk = range.chunk repoName file (splitLines file.content) first last := by
  rw [chunkCodeFile_perm.mem_iff, List.mem_flatMap]
  apply exists_congr
  intro range
  apply and_congr_right
  intro hrange
  exact mem_windowRange_iff (inside_of_mem_fileRanges (extractSymbolSpans_inside _ _ _ _) range
    hrange)

theorem stableKeys_nodup_iff :
    ((chunkCodeFile std wordChar repoName file config).map CodeChunk.stableKey).Nodup ↔
      (extractSymbolSpans std wordChar (splitLines file.content) file.language).Pairwise
        fun left right =>
          ¬left.range.SharesWindow (splitLines file.content) config right.range := by
  have hinside := inside_of_mem_fileRanges
    (extractSymbolSpans_inside std wordChar (splitLines file.content) file.language)
  rw [(chunkCodeFile_perm.map _).nodup_iff, List.Nodup, List.pairwise_map, List.pairwise_flatMap,
    and_iff_right fun range hrange => windowRange_pairwise (hinside range hrange),
    ← fileRanges_pairwise_iff (extractSymbolSpans_inside _ _ _ _)]
  apply List.Pairwise.iff_of_mem
  intro left right hleft hright
  exact windowRange_disjoint_iff (hinside left hleft) (hinside right hright)

end File

/-- The chunks of a file cover it, and their keys are distinct exactly when no two of
its symbols have the same name and a window in common. -/
theorem chunkCodeFile_covers_iff (std : Stdlib) (wordChar : CodePoint → Bool) (repoName : PyStr)
    (file : CodeFile) (config : ChunkConfig) (hmin : config.minChars ≤ 1) :
    CoverCompletely (splitLines file.content) config
        (chunkCodeFile std wordChar repoName file config) ↔
      (extractSymbolSpans std wordChar (splitLines file.content) file.language).Pairwise
        fun left right =>
          ¬left.range.SharesWindow (splitLines file.content) config right.range := by
  have hspans := extractSymbolSpans_inside std wordChar (splitLines file.content) file.language
  have hinside := inside_of_mem_fileRanges hspans
  refine Iff.trans ⟨CoverCompletely.distinct, fun hdistinct => ?_⟩ stableKeys_nodup_iff
  constructor
  · intro index hlt htext
    obtain ⟨range, hrange, hfrom, hto⟩ := @exists_range_of_line (splitLines file.content)
      (extractSymbolSpans std wordChar (splitLines file.content) file.language) index hlt
    obtain ⟨first, last, hwindow, hfirst, hlast⟩ :=
      exists_chunk_of_line hmin (hinside range hrange) htext hfrom hto
    exact ⟨_, mem_chunkCodeFile_iff.mpr ⟨range, hrange, first, last, hwindow, rfl⟩,
      Int.ofNat_le.mpr hfirst, Int.ofNat_le.mpr hlast⟩
  · intro chunk hchunk
    obtain ⟨range, hrange, first, last, hwindow, rfl⟩ := mem_chunkCodeFile_iff.mp hchunk
    have hbounds := hwindow.bounds (hinside range hrange)
    obtain ⟨hstart, hle, hend⟩ := hinside range hrange
    dsimp only [LineRange.chunk]
    omega
  · intro chunk hchunk
    obtain ⟨range, hrange, first, last, hwindow, rfl⟩ := mem_chunkCodeFile_iff.mp hchunk
    have hbounds := hwindow.bounds (hinside range hrange)
    have hsize : (config.size : ℤ) = max 1 config.maxLines := by
      rw [ChunkConfig.size]
      omega
    dsimp only [LineRange.chunk]
    omega
  · intro chunk hchunk
    obtain ⟨range, hrange, first, last, hwindow, rfl⟩ := mem_chunkCodeFile_iff.mp hchunk
    rfl
  · exact hdistinct

def twoFunctions : CodeFile where
  path := py "a.py"
  content := py "def f():\n  pass\n\ndef g():\n  pass"
  language := py "python"
  sha256 := py "0"

theorem twoFunctions_covered :
    CoverCompletely (splitLines twoFunctions.content) ⟨120, 20, 1⟩
      (chunkCodeFile asciiStdlib isDigit (py "repo") twoFunctions ⟨120, 20, 1⟩) := by
  apply (chunkCodeFile_covers_iff asciiStdlib isDigit (py "repo") twoFunctions ⟨120, 20, 1⟩
    le_rfl).mpr
  have hspans : extractSymbolSpans asciiStdlib isDigit (splitLines twoFunctions.content)
      twoFunctions.language =
        [⟨py "f", py "function", 1, 2⟩, ⟨py "g", py "function", 4, 5⟩] := by decide +kernel
  rw [hspans, List.pairwise_pair]
  rintro ⟨hname, _⟩
  exact absurd hname (by decide)

def nestedFunction : CodeFile where
  path := py "a.py"
  content := py "def f():\n  def f():\n    pass"
  language := py "python"
  sha256 := py "0"

/-- Chunks of single lines: both functions have the second line as a chunk. -/
theorem nestedFunction_chunks_collide :
    ¬CoverCompletely (splitLines nestedFunction.content) ⟨1, 0, 1⟩
      (chunkCodeFile asciiStdlib isDigit (py "repo") nestedFunction ⟨1, 0, 1⟩) := by
  intro hcovers
  have hspans : extractSymbolSpans asciiStdlib isDigit (splitLines nestedFunction.content)
      nestedFunction.language =
        [⟨py "f", py "function", 1, 3⟩, ⟨py "f", py "function", 2, 3⟩] := by decide +kernel
  have hapart := stableKeys_nodup_iff.mp hcovers.distinct
  rw [hspans, List.pairwise_pair] at hapart
  have htext : (1 : ℤ) ≤ (textOfLines (splitLines nestedFunction.content) 2 2).length := by
    decide +kernel
  apply hapart
  refine ⟨rfl, 2, 2, ⟨htext, (1, 2), ?_, rfl, rfl⟩, ⟨htext, (0, 1), ?_, rfl, rfl⟩⟩
  · exact ⟨1, rfl, by decide, by decide⟩
  · exact ⟨0, rfl, by decide, by decide⟩

end RootSeeker.CodeIndex
