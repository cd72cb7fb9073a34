import RootSeeker.Analysis.CodeSlice
import RootSeeker.CodeIndex.SpanBounds
import RootSeeker.Contracts.Numbers
import RootSeeker.Core.Loops
import RootSeeker.Core.MergedSpans

/-!
# The part of a source file that is returned

Requested methods, or a window of lines around a fault line, or within an
explicit range.
-/

namespace RootSeeker.Analysis

open Python Contracts Patterns MergedSpans CodeIndex

def defaultMaxCodeReadLines : ℤ := 400

/-! ## Methods in the source -/

def javaModifiers : List String :=
  ["public", "protected", "private", "static", "final", "synchronized", "native", "default",
    "abstract"]

def anyChar : Pattern CodePoint := one fun c => c ≠ CodePoint.ofChar '\n'

def theEnd : Pattern CodePoint := fun cursor => if cursor.rest = [] then [cursor] else []

/-- `_METHOD_START_RE`. -/
def methodStart : Pattern CodePoint :=
  sequence [spaces, atLeastOne (modifier javaModifiers), atLeastOne anyChar, keyword "(",
    many (one fun c => !symbolChar ";" c), keyword ")", spaces, optional (keyword "\x7b"), spaces,
    theEnd]

/-- `_CONTROL_START_RE`. -/
def controlStart (wordChar : CodePoint → Bool) : Pattern CodePoint :=
  sequence [spaces, keywordOf ["if", "for", "while", "switch", "catch", "else"],
    boundary (isWordChar wordChar)]

def namedStart (name : PyStr) : Pattern CodePoint :=
  sequence [spaces, many (modifier javaModifiers), atLeastOne anyChar, spacesNeeded,
    literally name, spaces, keyword "("]

def skipLeading : List PyStr :=
  [py "if", py "for", py "while", py "switch", py "catch", py "else", py "return", py "throw",
    py "new", py "this", py "super", py "try", py "do", py "case", py "assert", py "goto"]

def fits (pattern : Pattern CodePoint) (text : PyStr) : Bool :=
  (matchStart pattern text).isSome

section Source

variable (wordChar : CodePoint → Bool) (lines : List PyStr)

/-- The last line up to so many lines that starts a method. -/
def javaMethodStart : ℕ → Option ℕ
  | 0 => none
  | index + 1 =>
    let stripped := strip (lines.getD index [])
    if stripped = [] ∨ fits (controlStart wordChar) stripped then javaMethodStart index
    else if fits methodStart (lines.getD index []) then some (index + 1)
    else javaMethodStart index

/-- The line that closes the first block from a line on, or the last line. -/
def javaMethodEnd (start : ℕ) : ℕ :=
  match matchBraceBlock (0, false) (lines.drop (start - 1)) with
  | some length => start - 1 + length + 1
  | none => lines.length

def startsNamed (name text : PyStr) : Bool :=
  let stripped := strip text
  stripped ≠ [] ∧ ¬py ";" <:+ stripped ∧ stripped.takeWhile (!isSpace ·) ∉ skipLeading ∧
    fits (namedStart name) text

/-- The lines that may start a method of this name. -/
def namedCandidates (name : PyStr) : List ℕ :=
  (lines.zipIdx.filter fun line => startsNamed name line.1).map fun line => line.2 + 1

/-- `min` by distance: the first of the nearest. -/
def nearest (focus : ℤ) (first : ℕ) (rest : List ℕ) : ℕ :=
  rest.foldl (fun (best item : ℕ) =>
    if |(item : ℤ) - focus| < |(best : ℤ) - focus| then item else best) first

def chooseStart (candidates : List ℕ) (line : Option ℤ) : Option ℕ :=
  match candidates with
  | [] => none
  | first :: rest =>
    let focus := line.getD 0
    if 0 < focus then
      some (((candidates.filter fun (item : ℕ) => (item : ℤ) ≤ focus).getLast?).getD
        (nearest focus first rest))
    else some first

def javaNamedMethodSpan (name : PyStr) (line : Option ℤ) : Option (ℕ × ℕ) :=
  (chooseStart (namedCandidates lines name) line).map fun start => (start, javaMethodEnd lines start)

end Source

/-! ## The requested methods -/

/-- The name and the line of a requested method; other values have no name. -/
def methodSpec (std : NumberStdlib) : Json → Except PyError (PyStr × Option ℤ)
  | .str name => .ok (strip name, none)
  | .obj fields => do
    let name := strip (truthyText std.toStdlib
      [Dict.get? fields (py "name"), Dict.get? fields (py "method_name")])
    match (Dict.get? fields (py "line")).filter Json.truthy with
    | none => return (name, none)
    | some value => return (name, some (← intOf std value))
  | _ => .ok ([], none)

def addSpec (specs : List (PyStr × Option ℤ)) (spec : PyStr × Option ℤ) :
    List (PyStr × Option ℤ) :=
  if spec.1 = [] ∨ spec.1 ∈ constructorNames ∨ spec.1 ∈ specs.map Prod.fst then specs
  else specs ++ [spec]

def normalizeMethods (std : NumberStdlib) (methods : List Json) :
    Except PyError (List (PyStr × Option ℤ)) :=
  methods.foldlM (fun specs item => (methodSpec std item).map (addSpec specs)) []

/-! ## Lines -/

/-- A bound of a slice as a position. -/
def slicePosition (length : ℕ) (bound : ℤ) : ℕ :=
  if bound < 0 then (length + bound).toNat else min length bound.toNat

/-- `_join`. -/
def joinLines (lines : List PyStr) (start stop : ℤ) : PyStr :=
  join (py "\n") ((lines.take (slicePosition lines.length stop)).drop
    (slicePosition lines.length (start - 1)))

def extractNamedMethods (std : NumberStdlib) (lines : List PyStr) (methods : List Json) :
    Except PyError (Option (PyStr × ℤ × ℤ)) := do
  let specs ← normalizeMethods std methods
  match mergeSpans (specs.filterMap fun spec => javaNamedMethodSpan lines spec.1 spec.2) with
  | [] => return none
  | first :: rest =>
    let parts := (first :: rest).map fun span => joinLines lines span.1 span.2
    let last := (first :: rest).getLast (List.cons_ne_nil _ _)
    return some (join (py "\n\n") parts, first.1, last.2)

/-- A given number that is not zero, as `value or default` reads it. -/
def nonZero (value : Option ℤ) : Option ℤ :=
  value.filter (· ≠ 0)

def clampWindow (start stop total maxLines : ℤ) (focusLine : Option ℤ) : ℤ × ℤ :=
  let start := max 1 start
  let stop := min total (max start stop)
  if stop - start + 1 ≤ maxLines then (start, stop)
  else
    let focus := max start (min ((nonZero focusLine).getD stop) stop)
    let newStart := max start (focus - maxLines + 60)
    let newStop := min stop (newStart + maxLines - 1)
    if newStop - newStart + 1 < maxLines then (max start (newStop - maxLines + 1), newStop)
    else (newStart, newStop)

/-- The arguments of a call. -/
structure SliceRequest where
  text : PyStr
  startLine : ℤ := 1
  endLine : Option ℤ := none
  focusLine : Option ℤ := none
  methods : List Json := []
  maxLines : ℤ := defaultMaxCodeReadLines

namespace SliceRequest

variable (wordChar : CodePoint → Bool) (std : NumberStdlib) (request : SliceRequest)

def lines : List PyStr := splitLines request.text

def total : ℕ := request.lines.length

/-- The end of an explicit range. -/
def explicitEnd : Option ℤ :=
  request.endLine.filter (0 < ·)

/-- The end and the start of the range are given, and the start is not the default. -/
def hasRange : Bool :=
  request.explicitEnd.isSome ∧ 1 < request.startLine

def withText (window : ℤ × ℤ) : PyStr × ℤ × ℤ :=
  (joinLines request.lines window.1 window.2, window)

def focus (focusLine : ℤ) : ℕ :=
  (max 1 (min focusLine request.total)).toNat

/-- The method around the focus, or so many lines before and after it. -/
def around (focus : ℕ) : ℤ × ℤ :=
  match javaMethodStart wordChar request.lines focus with
  | some start => (start, javaMethodEnd request.lines start)
  | none => (max 1 (focus - 160), min request.total (focus + 40))

def unnamedWindow : ℤ × ℤ :=
  match nonZero request.focusLine with
  | some focusLine =>
    let focus := request.focus focusLine
    let window := request.around wordChar focus
    clampWindow window.1 window.2 request.total request.maxLines (some focus)
  | none =>
    if request.maxLines < request.total ∧ request.explicitEnd = none then (1, request.maxLines)
    else (1, request.total)

/-- The explicit range within the file. -/
def rangeWindow : ℤ × ℤ :=
  clampWindow (max 1 request.startLine)
    (match request.explicitEnd with
      | some stop => min request.total stop
      | none => request.total)
    request.total request.maxLines request.focusLine

/-- The named methods that are looked for and found. -/
def named : Except PyError (Option (PyStr × ℤ × ℤ)) :=
  if request.hasRange then .ok none else extractNamedMethods std request.lines request.methods

def sliceSourceWindow : Except PyError (PyStr × ℤ × ℤ) :=
  if request.total = 0 then .ok ([], 1, 1)
  else if request.hasRange then .ok (request.withText request.rangeWindow)
  else do
    match ← extractNamedMethods std request.lines request.methods with
    | some found => return found
    | none => return request.withText (request.unnamedWindow wordChar)

end SliceRequest

/-! ## Methods lie within the file -/

variable {start : ℕ}

theorem javaMethodStart_bounds {wordChar : CodePoint → Bool} {lines : List PyStr} {focus : ℕ}
    (hstart : javaMethodStart wordChar lines focus = some start) : 1 ≤ start ∧ start ≤ focus := by
  induction focus with
  | zero => exact absurd hstart (by simp [javaMethodStart])
  | succ index ih =>
    rw [javaMethodStart] at hstart
    split at hstart
    · exact ⟨(ih hstart).1, (ih hstart).2.trans (Nat.le_succ _)⟩
    · split at hstart
      · obtain rfl := Option.some.inj hstart
        exact ⟨Nat.succ_pos _, le_rfl⟩
      · exact ⟨(ih hstart).1, (ih hstart).2.trans (Nat.le_succ _)⟩

theorem javaMethodEnd_bounds {lines : List PyStr} (hfirst : 1 ≤ start)
    (hlast : start ≤ lines.length) :
    start ≤ javaMethodEnd lines start ∧ javaMethodEnd lines start ≤ lines.length := by
  rw [javaMethodEnd]
  split
  · next length hfound =>
    have hlt := matchBraceBlock_lt hfound
    rw [List.length_drop] at hlt
    omega
  · exact ⟨hlast, le_rfl⟩

theorem mem_namedCandidates {lines : List PyStr} {name : PyStr}
    (hmem : start ∈ namedCandidates lines name) : 1 ≤ start ∧ start ≤ lines.length := by
  obtain ⟨⟨line, index⟩, hline, rfl⟩ := List.mem_map.mp hmem
  have hlt := (List.mem_zipIdx (List.mem_of_mem_filter hline)).2.1
  exact ⟨Nat.succ_pos _, by omega⟩

theorem nearest_mem (focus : ℤ) (first : ℕ) (rest : List ℕ) :
    nearest focus first rest ∈ first :: rest := by
  rw [nearest]
  induction rest generalizing first with
  | nil => exact List.mem_singleton.mpr rfl
  | cons item rest ih =>
    rw [List.foldl_cons]
    split
    · exact List.mem_cons_of_mem _ (ih item)
    · cases List.mem_cons.mp (ih first) with
      | inl hfirst => exact List.mem_cons.mpr (.inl hfirst)
      | inr hrest => exact List.mem_cons_of_mem _ (List.mem_cons_of_mem _ hrest)

theorem mem_of_chooseStart {candidates : List ℕ} {line : Option ℤ}
    (hstart : chooseStart candidates line = some start) : start ∈ candidates := by
  cases candidates with
  | nil => exact absurd hstart (by simp [chooseStart])
  | cons first rest =>
    simp only [chooseStart] at hstart
    split at hstart
    · obtain rfl := Option.some.inj hstart
      cases hlast : ((first :: rest).filter fun item : ℕ =>
          decide ((item : ℤ) ≤ line.getD 0)).getLast? with
      | none => exact nearest_mem _ _ _
      | some item => exact List.mem_of_mem_filter (List.mem_of_getLast? hlast)
    · obtain rfl := Option.some.inj hstart
      exact List.mem_cons_self

theorem within_of_javaNamedMethodSpan {lines : List PyStr} {name : PyStr} {line : Option ℤ}
    {span : ℕ × ℕ} (hspan : javaNamedMethodSpan lines name line = some span) :
    Within lines.length span := by
  obtain ⟨start, hstart, rfl⟩ := Option.map_eq_some_iff.mp hspan
  obtain ⟨hfirst, hlast⟩ := mem_namedCandidates (mem_of_chooseStart hstart)
  exact ⟨hfirst, javaMethodEnd_bounds hfirst hlast⟩

/-! ## What is promised -/

/-- Texts of ranges of lines that lie apart, in order, from the first line to the last. -/
def IsNamed (lines : List PyStr) (result : PyStr × ℤ × ℤ) : Prop :=
  ∃ (spans : List (ℕ × ℕ)) (hne : spans ≠ []),
    (∀ span ∈ spans, Within lines.length span) ∧ spans.Pairwise Apart ∧
      result.1 = join (py "\n\n") (spans.map fun span => joinLines lines span.1 span.2) ∧
      result.2.1 = (spans.head hne).1 ∧ result.2.2 = (spans.getLast hne).2

theorem IsNamed.bounds {lines : List PyStr} {result : PyStr × ℤ × ℤ} (hnamed : IsNamed lines result) :
    1 ≤ result.2.1 ∧ result.2.1 ≤ result.2.2 ∧ result.2.2 ≤ lines.length := by
  obtain ⟨spans, hne, hspans, hapart, -, hstart, hstop⟩ := hnamed
  have hordered := head_le_getLast hspans hapart hne
  have hfirst := (hspans _ (List.head_mem hne)).1
  have hlast := (hspans _ (List.getLast_mem hne)).2.2
  omega

theorem isNamed_of_extractNamedMethods {std : NumberStdlib} {lines : List PyStr}
    {methods : List Json} {found : PyStr × ℤ × ℤ}
    (hfound : extractNamedMethods std lines methods = .ok (some found)) : IsNamed lines found := by
  rw [extractNamedMethods] at hfound
  obtain ⟨specs, -, hfound⟩ := Loops.exists_of_bind_eq_ok hfound
  have hwithin : ∀ span ∈ specs.filterMap fun spec => javaNamedMethodSpan lines spec.1 spec.2,
      Within lines.length span := fun span hspan =>
    let ⟨_, _, hspec⟩ := List.mem_filterMap.mp hspan
    within_of_javaNamedMethodSpan hspec
  obtain ⟨hmerged, hapart⟩ := mergeSpans_spec hwithin
  split at hfound
  · exact absurd hfound (by simp [pure, Except.pure])
  · next first rest heq =>
    rw [heq] at hmerged hapart
    obtain rfl := Option.some.inj (Except.ok.inj hfound)
    exact ⟨first :: rest, List.cons_ne_nil _ _, hmerged, hapart, rfl, rfl, rfl⟩

/-- The last line of a window that is cut to a number of lines, when a line in it is asked
for. -/
def windowEnd (first last maxLines focus : ℤ) : ℤ :=
  if last - first + 1 ≤ maxLines then last
  else min last (max (first + maxLines - 1) (focus + 59))

/-- A cut window ends where `windowEnd` says and has as many lines as fit. -/
theorem clampWindow_eq {first last total maxLines : ℤ} (hfirst : 1 ≤ first) (hle : first ≤ last)
    (hlast : last ≤ total) (focusLine : Option ℤ) :
    clampWindow first last total maxLines focusLine =
      (max first (windowEnd first last maxLines
          (max first (min ((nonZero focusLine).getD last) last)) - maxLines + 1),
        windowEnd first last maxLines (max first (min ((nonZero focusLine).getD last) last))) := by
  rw [clampWindow, windowEnd, max_eq_right hfirst, max_eq_right hle, min_eq_right hlast]
  generalize (nonZero focusLine).getD last = focus
  split
  · next hshort => rw [max_eq_left (by omega)]
  · next hlong =>
    dsimp only
    split
    all_goals
      refine Prod.ext ?_ ?_
      all_goals
        dsimp only
        omega

/-- A cut window keeps the line: nothing is cut, or sixty lines are allowed, or few lines
follow. -/
def Near (first last maxLines focus : ℤ) : Prop :=
  last - first + 1 ≤ maxLines ∨ 60 ≤ maxLines ∨ last < focus + maxLines

namespace SliceRequest

variable {wordChar : CodePoint → Bool} {std : NumberStdlib} {request : SliceRequest}

/-- The line that is asked for, where it falls into the file. -/
def FocusIs (request : SliceRequest) (line : ℤ) : Prop :=
  request.focusLine = some line ∧ 1 ≤ line ∧ line ≤ request.total

/-- The end that is asked for, where the start is not past the end of the file. -/
def EndIs (request : SliceRequest) (line : ℤ) : Prop :=
  request.endLine = some line ∧ request.startLine ≤ request.total

/-- A window of the file, within its limits and with the line that is asked for. -/
structure Keeps (request : SliceRequest) (window : ℤ × ℤ) : Prop where
  bounds : 1 ≤ window.1 ∧ window.1 ≤ window.2 ∧ window.2 ≤ request.total
  size : 60 ≤ request.maxLines → window.2 - window.1 + 1 ≤ request.maxLines
  range : ∀ stop, request.EndIs stop → request.startLine ≤ window.1 ∧ window.2 ≤ stop
  focus : ∀ line, request.FocusIs line → window.1 ≤ line ∧ line ≤ window.2

/-- What is promised: the lines of a window or, where named methods are found, their texts. -/
def Promise (std : NumberStdlib) (request : SliceRequest) (result : PyStr × ℤ × ℤ) : Prop :=
  match request.named std with
  | .ok (some _) =>
    (1 ≤ result.2.1 ∧ result.2.1 ≤ result.2.2 ∧ result.2.2 ≤ request.total) ∧
      IsNamed request.lines result
  | _ => result.1 = joinLines request.lines result.2.1 result.2.2 ∧ request.Keeps result.2

/-- An explicit range lies in the file, with the line that is asked for in it. -/
def RangeFits (request : SliceRequest) (stop : ℤ) : Prop :=
  1 ≤ request.maxLines ∧ request.startLine ≤ request.total ∧ request.startLine ≤ stop ∧
    ∀ line, request.FocusIs line →
      request.startLine ≤ line ∧ line ≤ min (request.total : ℤ) stop ∧
        Near request.startLine (min request.total stop) request.maxLines line

/-- The line that is asked for lies in the lines around it, and these end in the range. -/
def FocusFits (wordChar : CodePoint → Bool) (request : SliceRequest) (focusLine : ℤ) : Prop :=
  let window := request.around wordChar (request.focus focusLine)
  1 ≤ request.maxLines ∧
    (∀ line, request.FocusIs line →
      line ≤ window.2 ∧ Near window.1 window.2 request.maxLines line) ∧
    ∀ stop, request.EndIs stop → 0 < stop ∧
      windowEnd window.1 window.2 request.maxLines (min (request.focus focusLine) window.2) ≤ stop

/-- The whole file lies in the range and is not too long, or its first lines are not cut by a
range. -/
def FileFits (request : SliceRequest) : Prop :=
  if request.maxLines < request.total ∧ request.explicitEnd = none then
    1 ≤ request.maxLines ∧ ∀ stop, ¬request.EndIs stop
  else
    (60 ≤ request.maxLines → request.total ≤ request.maxLines) ∧
      ∀ stop, request.EndIs stop → 0 < stop ∧ request.total ≤ stop

/-- When the promise is kept. -/
def Fits (wordChar : CodePoint → Bool) (std : NumberStdlib) (request : SliceRequest) : Prop :=
  if request.hasRange then ∀ stop, request.endLine = some stop → request.RangeFits stop
  else
    match request.named std, nonZero request.focusLine with
    | .ok none, some focusLine => request.FocusFits wordChar focusLine
    | .ok none, none => request.FileFits
    | _, _ => True

theorem focus_bounds (htotal : 0 < request.total) (focusLine : ℤ) :
    1 ≤ request.focus focusLine ∧ request.focus focusLine ≤ request.total := by
  rw [focus]
  omega

theorem around_bounds (wordChar : CodePoint → Bool) {focus : ℕ} (hfirst : 1 ≤ focus)
    (hlast : focus ≤ request.total) :
    1 ≤ (request.around wordChar focus).1 ∧
      (request.around wordChar focus).1 ≤ focus ∧
      (request.around wordChar focus).1 ≤ (request.around wordChar focus).2 ∧
      (request.around wordChar focus).2 ≤ request.total := by
  rw [around]
  split
  · next start hstart =>
    obtain ⟨hone, hle⟩ := javaMethodStart_bounds hstart
    obtain ⟨hend, htotal⟩ := javaMethodEnd_bounds hone (hle.trans hlast)
    dsimp only
    rw [total] at *
    omega
  · dsimp only
    omega

theorem hasRange_iff : request.hasRange = true ↔
    1 < request.startLine ∧ ∃ stop, request.endLine = some stop ∧ 0 < stop := by
  rw [hasRange, decide_eq_true_eq, and_comm, explicitEnd]
  refine and_congr_right fun _ => ?_
  rw [Option.isSome_iff_exists]
  simp only [Option.filter_eq_some_iff, decide_eq_true_eq]

/-- Without a range the start is the first line, when an end is given. -/
theorem startLine_le_one (hrange : request.hasRange = false) {stop : ℤ}
    (hend : request.endLine = some stop) (hpos : 0 < stop) : request.startLine ≤ 1 := by
  by_contra hstart
  have htrue := hasRange_iff.mpr ⟨not_le.mp hstart, stop, hend, hpos⟩
  exact Bool.noConfusion (hrange.symm.trans htrue)

theorem explicitEnd_eq {stop : ℤ} (hend : request.endLine = some stop) (hpos : 0 < stop) :
    request.explicitEnd = some stop := by
  rw [explicitEnd, hend, Option.filter_some_pos (by simpa using hpos)]

theorem nonZero_of_focusIs {line : ℤ} (hfocus : request.FocusIs line) :
    nonZero request.focusLine = some line := by
  rw [nonZero, hfocus.1, Option.filter_some_pos]
  simpa using (show line ≠ 0 by have := hfocus.2.1; omega)

/-- A cut window of the file holds the line that it is cut around when it is near enough. -/
theorem keeps_clampWindow_iff {first last : ℤ} (hfirst : 1 ≤ first) (hle : first ≤ last)
    (hlast : last ≤ request.total) {focusLine : Option ℤ}
    (hfocus : ∀ line, request.FocusIs line → nonZero focusLine = some line) :
    request.Keeps (clampWindow first last request.total request.maxLines focusLine) ↔
      1 ≤ request.maxLines ∧
      (∀ line, request.FocusIs line →
        first ≤ line ∧ line ≤ last ∧ Near first last request.maxLines line) ∧
      ∀ stop, request.EndIs stop →
        let focus := max first (min ((nonZero focusLine).getD last) last)
        let stopLine := windowEnd first last request.maxLines focus
        request.startLine ≤ max first (stopLine - request.maxLines + 1) ∧ stopLine ≤ stop := by
  rw [clampWindow_eq hfirst hle hlast]
  constructor
  · intro hkeeps
    have hone : 1 ≤ request.maxLines := by
      have hbounds := hkeeps.bounds
      rw [windowEnd] at hbounds
      dsimp only at hbounds
      split at hbounds <;> omega
    refine ⟨hone, fun line hline => ?_, hkeeps.range⟩
    have hkept := hkeeps.focus line hline
    rw [hfocus line hline, Option.getD_some, windowEnd] at hkept
    rw [Near]
    dsimp only at hkept
    split at hkept <;> omega
  · rintro ⟨hone, hnear, hrange⟩
    refine ⟨?_, fun _ => ?_, hrange, fun line hline => ?_⟩
    · dsimp only
      rw [windowEnd]
      split <;> omega
    · dsimp only
      omega
    · obtain ⟨hbefore, hafter, hnear⟩ := hnear line hline
      rw [Near] at hnear
      rw [hfocus line hline, Option.getD_some, windowEnd]
      dsimp only
      split <;> omega

theorem le_clampWindow (first last total maxLines : ℤ) (focusLine : Option ℤ) :
    first ≤ (clampWindow first last total maxLines focusLine).1 := by
  rw [clampWindow]
  dsimp only
  split
  · exact le_max_right _ _
  · split
    · exact (le_max_right _ _).trans (le_max_left _ _)
    · exact (le_max_right _ _).trans (le_max_left _ _)

theorem keeps_rangeWindow_iff {stop : ℤ} (hend : request.endLine = some stop) (hpos : 0 < stop)
    (hstart : 1 < request.startLine) :
    request.Keeps request.rangeWindow ↔ request.RangeFits stop := by
  rw [rangeWindow, explicitEnd_eq hend hpos, RangeFits]
  dsimp only
  rw [max_eq_right hstart.le]
  by_cases hinside : request.startLine ≤ request.total ∧ request.startLine ≤ stop
  · obtain ⟨htotal, hstop⟩ := hinside
    rw [keeps_clampWindow_iff hstart.le (le_min htotal hstop) (min_le_left _ _)
      (fun _ hline => nonZero_of_focusIs hline)]
    refine and_congr_right fun hone => ?_
    rw [and_iff_right htotal, and_iff_right hstop, and_iff_left]
    rintro later ⟨hlater, -⟩
    obtain rfl := Option.some.inj (hend.symm.trans hlater)
    refine ⟨le_max_left _ _, ?_⟩
    rw [windowEnd]
    split <;> omega
  · refine iff_of_false (fun hkeeps => hinside ?_) fun hfits => hinside ⟨hfits.2.1, hfits.2.2.1⟩
    have hbounds := hkeeps.bounds
    have hfirst := le_clampWindow request.startLine (min request.total stop) request.total
      request.maxLines request.focusLine
    have htotal : request.startLine ≤ request.total := by omega
    have hrange := hkeeps.range stop ⟨hend, htotal⟩
    omega

theorem keeps_focusWindow_iff (htotal : 0 < request.total) (hrange : request.hasRange = false)
    {focusLine : ℤ} (hfocus : nonZero request.focusLine = some focusLine) :
    request.Keeps (request.unnamedWindow wordChar) ↔ request.FocusFits wordChar focusLine := by
  rw [unnamedWindow, hfocus, FocusFits]
  dsimp only
  obtain ⟨hone, hle⟩ := focus_bounds htotal focusLine
  obtain ⟨hfirst, hbefore, hordered, hlast⟩ := around_bounds wordChar hone hle
  have hnonZero : nonZero (some (request.focus focusLine : ℤ)) = some ↑(request.focus focusLine) :=
    Option.filter_some_pos (by simp only [decide_eq_true_eq]; omega)
  have hsame : ∀ line, request.FocusIs line → (request.focus focusLine : ℤ) = line := by
    intro line hline
    obtain rfl := Option.some.inj (hfocus.symm.trans (nonZero_of_focusIs hline))
    rw [focus]
    have hbounds := hline.2
    omega
  rw [keeps_clampWindow_iff hfirst hordered hlast
    (fun line hline => hnonZero.trans (congrArg some (hsame line hline)))]
  refine and_congr_right fun hpositive => and_congr ?_ ?_
  · refine forall₂_congr fun line hline => ?_
    rw [and_iff_right (hsame line hline ▸ hbefore)]
  · refine forall₂_congr fun stop hstop => ?_
    rw [hnonZero, Option.getD_some, max_eq_right (le_min hbefore hordered)]
    dsimp only
    generalize hwindow : request.around wordChar (request.focus focusLine) = window at *
    have hend : window.1 ≤ windowEnd window.1 window.2 request.maxLines
        (min (request.focus focusLine) window.2) := by
      rw [windowEnd]
      split <;> omega
    constructor
    · rintro ⟨-, hstops⟩
      exact ⟨by omega, hstops⟩
    · rintro ⟨hpos, hstops⟩
      have hstart := startLine_le_one hrange hstop.1 hpos
      exact ⟨by omega, hstops⟩

theorem keeps_fileWindow_iff (htotal : 0 < request.total) (hrange : request.hasRange = false)
    (hfocus : nonZero request.focusLine = none) :
    request.Keeps (request.unnamedWindow wordChar) ↔ request.FileFits := by
  have hnone : ∀ line, ¬request.FocusIs line := fun line hline =>
    absurd (hfocus.symm.trans (nonZero_of_focusIs hline)) (by simp)
  rw [unnamedWindow, hfocus, FileFits]
  dsimp only
  split
  · next hcut =>
    obtain ⟨hlong, hend⟩ := hcut
    constructor
    · intro hkeeps
      refine ⟨hkeeps.bounds.2.1, fun stop hstop => ?_⟩
      have hrange := hkeeps.range stop hstop
      have hpos : 0 < stop := by
        have hbounds := hkeeps.bounds
        omega
      exact absurd (hend.symm.trans (explicitEnd_eq hstop.1 hpos)) (by simp)
    · rintro ⟨hone, hnever⟩
      exact
        { bounds := ⟨le_rfl, hone, hlong.le⟩
          size := fun _ => by dsimp only; omega
          range := fun stop hstop => absurd hstop (hnever stop)
          focus := fun line hline => absurd hline (hnone line) }
  · constructor
    · intro hkeeps
      refine ⟨fun hmany => ?_, fun stop hstop => ?_⟩
      · have hsize := hkeeps.size hmany
        dsimp only at hsize
        omega
      · have hstops := (hkeeps.range stop hstop).2
        exact ⟨by omega, hstops⟩
    · rintro ⟨hsize, hrange'⟩
      exact
        { bounds := ⟨le_rfl, by dsimp only; omega, le_rfl⟩
          size := fun hmany => by have hfits := hsize hmany; dsimp only; omega
          range := fun stop hstop =>
            ⟨startLine_le_one hrange hstop.1 (hrange' stop hstop).1, (hrange' stop hstop).2⟩
          focus := fun line hline => absurd hline (hnone line) }

theorem total_pos (htext : request.text ≠ []) : 0 < request.total :=
  List.length_pos_of_ne_nil (splitLines_ne_nil htext)

/-- A slice is an explicit range, named methods or another window. -/
theorem slice_cases (htext : request.text ≠ []) {result : PyStr × ℤ × ℤ}
    (hresult : request.sliceSourceWindow wordChar std = .ok result) :
    (request.hasRange = true ∧ result = request.withText request.rangeWindow) ∨
      (request.hasRange = false ∧ request.named std = .ok (some result)) ∨
      (request.hasRange = false ∧ request.named std = .ok none ∧
        result = request.withText (request.unnamedWindow wordChar)) := by
  rw [sliceSourceWindow, if_neg (total_pos htext).ne'] at hresult
  cases hrange : request.hasRange with
  | true =>
    rw [if_pos hrange] at hresult
    exact .inl ⟨rfl, (Except.ok.inj hresult).symm⟩
  | false =>
    rw [hrange, if_neg Bool.false_ne_true] at hresult
    obtain ⟨found, hfound, hresult⟩ := Loops.exists_of_bind_eq_ok hresult
    have hnamed : request.named std = .ok found := by
      rw [named, hrange, if_neg Bool.false_ne_true, hfound]
    right
    cases found with
    | none => exact .inr ⟨rfl, hnamed, (Except.ok.inj hresult).symm⟩
    | some window =>
      obtain rfl := Except.ok.inj hresult
      exact .inl ⟨rfl, hnamed⟩

/-- The slice of a text keeps what is promised exactly when the range and the line that are
asked for fit. -/
theorem slice_keeps_promise_iff (htext : request.text ≠ []) {result : PyStr × ℤ × ℤ}
    (hresult : request.sliceSourceWindow wordChar std = .ok result) :
    request.Promise std result ↔ request.Fits wordChar std := by
  rcases slice_cases htext hresult with ⟨hrange, rfl⟩ | ⟨hrange, hnamed⟩ | ⟨hrange, hnamed, rfl⟩
  · obtain ⟨hstart, stop, hend, hpos⟩ := hasRange_iff.mp hrange
    rw [Promise, Fits, named, if_pos hrange, if_pos hrange]
    dsimp only
    rw [withText, and_iff_right rfl, keeps_rangeWindow_iff hend hpos hstart]
    constructor
    · rintro hfits later hlater
      exact Option.some.inj (hend.symm.trans hlater) ▸ hfits
    · exact fun hfits => hfits stop hend
  · have hfound : IsNamed request.lines result := by
      rw [named, hrange, if_neg Bool.false_ne_true] at hnamed
      exact isNamed_of_extractNamedMethods hnamed
    rw [Promise, Fits, hnamed, hrange, if_neg Bool.false_ne_true]
    dsimp only
    exact iff_of_true ⟨hfound.bounds, hfound⟩ trivial
  · rw [Promise, Fits, hnamed, hrange, if_neg Bool.false_ne_true]
    dsimp only
    rw [withText, and_iff_right rfl]
    cases hfocus : nonZero request.focusLine with
    | none => exact keeps_fileWindow_iff (total_pos htext) hrange hfocus
    | some focusLine => exact keeps_focusWindow_iff (total_pos htext) hrange hfocus

/-- The second and third line of a file of three lines, with the third asked for. -/
def insideRequest : SliceRequest where
  text := py "a\nb\nc"
  startLine := 2
  endLine := some 9
  focusLine := some 3

theorem inside_is_kept :
    insideRequest.Promise numberStdlib (py "b\nc", 2, 3) ↔
      insideRequest.Fits (fun _ => false) numberStdlib :=
  slice_keeps_promise_iff (by decide) (by rfl)

/-- The first line of three: the end of the range is not read, as the start is the default. -/
def firstLineRequest : SliceRequest where
  text := py "a\nb\nc"
  endLine := some 1

/-- A range after the end of the file. -/
def pastEndRequest : SliceRequest where
  text := py "a\nb\nc"
  startLine := 5
  endLine := some 9

theorem range_is_missed :
    (firstLineRequest.sliceSourceWindow (fun _ => false) numberStdlib = .ok (py "a\nb\nc", 1, 3) ∧
        ¬firstLineRequest.Promise numberStdlib (py "a\nb\nc", 1, 3)) ∧
      pastEndRequest.sliceSourceWindow (fun _ => false) numberStdlib = .ok ([], 5, 3) ∧
        ¬pastEndRequest.Promise numberStdlib ([], 5, 3) := by
  refine ⟨⟨by rfl, ?_⟩, by rfl, ?_⟩
  · rintro ⟨-, hkeeps⟩
    exact absurd (hkeeps.range 1 ⟨rfl, by decide⟩).2 (by decide)
  · rintro ⟨-, hkeeps⟩
    exact absurd hkeeps.bounds.2.1 (by decide)

end SliceRequest

end RootSeeker.Analysis
