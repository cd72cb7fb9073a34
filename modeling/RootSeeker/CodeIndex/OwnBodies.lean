import RootSeeker.CodeIndex.SpanBounds

/-!
# The body of a declaration

Which block the signature of a declaration opens, read from its characters, and
when the spans of a Java file end with the bodies of their own declarations.
-/

namespace RootSeeker.CodeIndex

open Python Patterns

/-! ## Signatures -/

/-- What a character of a source file belongs to. -/
inductive Mode where
  | code
  | literal (quote : CodePoint)
  | escaped (quote : CodePoint)
  | commentStart
  | comment
  | commentStar

/-- What a line does to a signature that is read up to it. -/
inductive SignatureLine where
  /-- It opens a block with these characters after the brace. -/
  | opens (rest : PyStr)
  | ends
  | runsOn (mode : Mode) (depth : ℕ)

/-- Read a line in so many open parentheses; what is in them, in a literal or in a comment
neither opens a block nor ends the signature. -/
def readSignature : Mode → ℕ → PyStr → SignatureLine
  | mode, depth, [] => .runsOn mode depth
  | .code, depth, c :: rest =>
    if c = doubleQuote ∨ c = apostrophe then readSignature (.literal c) depth rest
    else if c = CodePoint.ofChar '/' ∧ rest.head? = some (CodePoint.ofChar '/') then
      .runsOn .code depth
    else if c = CodePoint.ofChar '/' ∧ rest.head? = some (CodePoint.ofChar '*') then
      readSignature .commentStart depth rest
    else if c = CodePoint.ofChar '(' then readSignature .code (depth + 1) rest
    else if c = CodePoint.ofChar ')' then readSignature .code (depth - 1) rest
    else if depth = 0 ∧ c = leftBrace then .opens rest
    else if depth = 0 ∧ (c = rightBrace ∨ c = CodePoint.ofChar ';') then .ends
    else readSignature .code depth rest
  | .literal quote, depth, c :: rest =>
    if c = quote then readSignature .code depth rest
    else if c = backslash then readSignature (.escaped quote) depth rest
    else readSignature (.literal quote) depth rest
  | .escaped quote, depth, _ :: rest => readSignature (.literal quote) depth rest
  | .commentStart, depth, _ :: rest => readSignature .comment depth rest
  | .comment, depth, c :: rest =>
    if c = CodePoint.ofChar '*' then readSignature .commentStar depth rest
    else readSignature .comment depth rest
  | .commentStar, depth, c :: rest =>
    if c = CodePoint.ofChar '/' then readSignature .code depth rest
    else if c = CodePoint.ofChar '*' then readSignature .commentStar depth rest
    else readSignature .comment depth rest

/-- The depth after a line in so many open blocks, unless the outermost is closed in it. -/
def depthAfter : ℕ → PyStr → Option ℕ
  | depth, [] => some depth
  | depth, c :: rest =>
    if c = leftBrace then depthAfter (depth + 1) rest
    else if c = rightBrace then if depth ≤ 1 then none else depthAfter (depth - 1) rest
    else depthAfter depth rest

/-- The number of lines to the one that closes the outermost of so many open blocks. -/
def closesAt : ℕ → List PyStr → Option ℕ
  | _, [] => none
  | depth, line :: rest =>
    match depthAfter depth line with
    | none => some 0
    | some depth => (closesAt depth rest).map (· + 1)

section Bodies

variable (wordChar : CodePoint → Bool)

def isMethodHeader (line : PyStr) : Bool :=
  (javaHeader wordChar line).any fun header => header.1 = py "method"

/-- The number of lines to the one where a signature opens its block, and what follows the
brace there, unless the signature or a line before a method header ends it. -/
def signatureFrom : Mode → ℕ → List PyStr → Option (ℕ × PyStr)
  | _, _, [] => none
  | mode, depth, line :: lines =>
    match readSignature mode depth line with
    | .opens rest => some (0, rest)
    | .ends => none
    | .runsOn mode depth =>
      if lines.head?.any (isMethodHeader wordChar) then none
      else (signatureFrom mode depth lines).map fun found => (found.1 + 1, found.2)

variable (lines : List PyStr) (index : ℕ)

def signature : Option (ℕ × PyStr) :=
  signatureFrom wordChar .code 0 (lines.drop index)

/-- The lines from a declaration to the brace of its body, and from there to the closing one. -/
def ownBlock : Option (ℕ × ℕ) :=
  (signature wordChar lines index).bind fun (opening, rest) =>
    (closesAt 1 (rest :: lines.drop (index + opening + 1))).map (opening, ·)

/-- A span from a header to the end of its own block, with only methods in it that start
within that block. -/
def IsDeclaration (span : SymbolSpan) : Prop :=
  ∃ index opening length, span.startLine = index + 1 ∧
    javaHeader wordChar (lines.getD index []) = some (span.kind, span.name) ∧
    ownBlock wordChar lines index = some (opening, length) ∧
    span.endLine = index + opening + length + 1 ∧
    (span.kind = py "method" → ∀ other, isMethodHeader wordChar (lines.getD other []) = true →
      index < other → other < span.endLine → index + opening < other)

/-- The headers outside the bodies of methods for which a brace is found. -/
def headersFrom (index : ℕ) : List ℕ :=
  if index < lines.length then
    match javaHeader wordChar (lines.getD index []) with
    | none => headersFrom (index + 1)
    | some (kind, _) =>
      let next :=
        if kind = py "class" ∨ blockOf lines index = none then 0
        else ((ownBlock wordChar lines index).map fun own => own.1 + own.2).getD 0
      index :: headersFrom (index + next + 1)
  else []
termination_by lines.length - index
decreasing_by all_goals omega

/-- A found brace is the first one of the own signature, or both their blocks close on one
line. -/
def Decided : Prop :=
  ∀ opening length, blockOf lines index = some (opening, length) →
    ∃ own rest, signature wordChar lines index = some (own, rest) ∧
      ((own = opening ∧ ∃ before, lines.getD (index + own) [] = before ++ leftBrace :: rest ∧
          leftBrace ∉ before ∧ rightBrace ∉ before) ∨
        (closesAt 1 (rest :: lines.drop (index + own + 1))).map (own + ·) =
          some (opening + length))

end Bodies

/-! ## Closing a block -/

variable {depth : ℕ}

theorem depthAfter_pos {after : ℕ} {line : PyStr} (hdepth : 1 ≤ depth)
    (hafter : depthAfter depth line = some after) : 1 ≤ after := by
  induction line generalizing depth with
  | nil => exact Option.some.inj hafter ▸ hdepth
  | cons c rest ih =>
    rw [depthAfter] at hafter
    split at hafter
    · exact ih (Nat.succ_pos _) hafter
    · split at hafter
      · split at hafter
        · exact absurd hafter (by simp)
        · exact ih (by omega) hafter
      · exact ih hdepth hafter

theorem braceDepth_eq_depthAfter (hdepth : 1 ≤ depth) (line : PyStr) :
    braceDepth line (depth, true) = (depthAfter depth line).map fun after => (↑after, true) := by
  induction line generalizing depth with
  | nil => rfl
  | cons c rest ih =>
    rw [braceDepth, depthAfter]
    split
    · exact_mod_cast ih (Nat.succ_pos depth)
    · split
      · by_cases hlast : depth ≤ 1
        · rw [if_pos ⟨rfl, by omega⟩, if_pos hlast, Option.map_none]
        · have hcast : (depth : ℤ) - 1 = ((depth - 1 : ℕ) : ℤ) := by omega
          rw [if_neg (fun hzero => hlast (by omega)), if_neg hlast, hcast]
          exact ih (by omega)
      · exact ih hdepth

theorem matchBraceBlock_eq_closesAt (hdepth : 1 ≤ depth) (lines : List PyStr) :
    matchBraceBlock (depth, true) lines = closesAt depth lines := by
  induction lines generalizing depth with
  | nil => rfl
  | cons line lines ih =>
    rw [matchBraceBlock, closesAt, braceDepth_eq_depthAfter hdepth]
    cases hafter : depthAfter depth line with
    | none => rfl
    | some after => exact congrArg (Option.map (· + 1)) (ih (depthAfter_pos hdepth hafter))

/-- Nothing counts before the first brace of a line. -/
theorem braceDepth_before {before : PyStr} (hleft : leftBrace ∉ before)
    (hright : rightBrace ∉ before) (rest : PyStr) (state : ℤ × Bool) :
    braceDepth (before ++ rest) state = braceDepth rest state := by
  induction before with
  | nil => rfl
  | cons c before ih =>
    rw [List.mem_cons, not_or] at hleft hright
    rw [List.cons_append, braceDepth, if_neg (Ne.symm hleft.1), if_neg (Ne.symm hright.1)]
    exact ih hleft.2 hright.2

theorem matchBraceBlock_opening {before : PyStr} (hleft : leftBrace ∉ before)
    (hright : rightBrace ∉ before) (rest : PyStr) (lines : List PyStr) :
    matchBraceBlock (0, false) ((before ++ leftBrace :: rest) :: lines) =
      closesAt 1 (rest :: lines) := by
  rw [matchBraceBlock, braceDepth_before hleft hright, braceDepth, if_pos rfl,
    ← matchBraceBlock_eq_closesAt le_rfl, matchBraceBlock]
  rfl

section Declarations

variable {wordChar : CodePoint → Bool} {lines : List PyStr} {index : ℕ}

/-- What is found at a header is decided when the own block ends with it. -/
theorem decided_iff : Decided wordChar lines index ↔
    ∀ opening length, blockOf lines index = some (opening, length) →
      ∃ own, ownBlock wordChar lines index = some own ∧ own.1 + own.2 = opening + length := by
  refine forall₃_congr fun opening length hblock => ?_
  constructor
  · rintro ⟨own, rest, hsignature, hfirst | hsame⟩
    · obtain ⟨rfl, before, hline, hleft, hright⟩ := hfirst
      have hlt := blockOf_lt hblock
      have hclosing : closesAt 1 (rest :: lines.drop (index + own + 1)) = some length := by
        obtain ⟨found, -, hmatch⟩ := Option.bind_eq_some_iff.mp hblock
        obtain ⟨closing, hclosing, heq⟩ := Option.map_eq_some_iff.mp hmatch
        obtain ⟨rfl, rfl⟩ := Prod.mk.inj heq
        rw [List.drop_eq_getElem_cons (by omega), ← List.getD_eq_getElem _ [], hline,
          matchBraceBlock_opening hleft hright] at hclosing
        exact hclosing
      refine ⟨(own, length), ?_, rfl⟩
      rw [ownBlock, hsignature, Option.bind_some]
      dsimp only
      rw [hclosing, Option.map_some]
    · obtain ⟨closing, hclosing, hsum⟩ := Option.map_eq_some_iff.mp hsame
      refine ⟨(own, closing), ?_, hsum⟩
      rw [ownBlock, hsignature, Option.bind_some]
      dsimp only
      rw [hclosing, Option.map_some]
  · rintro ⟨own, hown, hsum⟩
    obtain ⟨⟨opened, rest⟩, hsignature, hclosed⟩ := Option.bind_eq_some_iff.mp hown
    obtain ⟨closing, hclosing, rfl⟩ := Option.map_eq_some_iff.mp hclosed
    refine ⟨opened, rest, hsignature, .inr ?_⟩
    rw [hclosing, Option.map_some]
    exact congrArg some hsum

/-- No method header stands between a header and its brace. -/
theorem not_isMethodHeader_of_signatureFrom {mode : Mode} {opening : ℕ} {rest : PyStr}
    (hsignature : signatureFrom wordChar mode depth lines = some (opening, rest)) (other : ℕ)
    (hafter : 0 < other) (hbefore : other ≤ opening) :
    isMethodHeader wordChar (lines.getD other []) = false := by
  induction lines generalizing mode depth opening other with
  | nil => exact absurd hsignature (by simp [signatureFrom])
  | cons line lines ih =>
    rw [signatureFrom] at hsignature
    split at hsignature
    · obtain ⟨rfl, -⟩ := Prod.mk.inj (Option.some.inj hsignature)
      omega
    · exact absurd hsignature (by simp)
    · split at hsignature
      · exact absurd hsignature (by simp)
      · next hhead =>
        obtain ⟨⟨later, found⟩, hlater, heq⟩ := Option.map_eq_some_iff.mp hsignature
        obtain ⟨rfl, rfl⟩ := Prod.mk.inj heq
        obtain ⟨other, rfl⟩ := Nat.exists_eq_succ_of_ne_zero hafter.ne'
        rw [List.getD_cons_succ]
        cases other with
        | zero =>
          cases lines with
          | nil => exact absurd hlater (by simp [signatureFrom])
          | cons next lines => exact Bool.eq_false_of_not_eq_true hhead
        | succ other => exact ih hlater _ (Nat.succ_pos _) (Nat.le_of_succ_le_succ hbefore)

variable {span : SymbolSpan}

theorem isDeclaration_iff (hstart : span.startLine = index + 1)
    (hheader : javaHeader wordChar (lines.getD index []) = some (span.kind, span.name)) :
    IsDeclaration wordChar lines span ↔
      ∃ own, ownBlock wordChar lines index = some own ∧
        span.endLine = index + own.1 + own.2 + 1 := by
  constructor
  · rintro ⟨other, opening, length, hother, -, hown, hend, -⟩
    obtain rfl : other = index := by omega
    exact ⟨(opening, length), hown, hend⟩
  · rintro ⟨⟨opening, length⟩, hown, hend⟩
    refine ⟨index, opening, length, hstart, hheader, hown, hend, fun _ other hother hafter _ => ?_⟩
    by_contra hinside
    obtain ⟨⟨opened, rest⟩, hsignature, hclosed⟩ := Option.bind_eq_some_iff.mp hown
    obtain ⟨closing, -, heq⟩ := Option.map_eq_some_iff.mp hclosed
    obtain ⟨rfl, rfl⟩ := Prod.mk.inj heq
    have hnone := not_isMethodHeader_of_signatureFrom hsignature (other - index) (by omega)
      (by omega)
    rw [List.getD_eq_getElem?_getD, List.getElem?_drop, Nat.add_sub_cancel' hafter.le,
      ← List.getD_eq_getElem?_getD, hother] at hnone
    exact Bool.noConfusion hnone

theorem header_of_mem_braceSpansFrom {header : PyStr → Option (PyStr × PyStr)}
    {nests : PyStr → Bool} (hspan : span ∈ braceSpansFrom header nests lines index) :
    1 ≤ span.startLine ∧
      header (lines.getD (span.startLine - 1) []) = some (span.kind, span.name) := by
  induction index using braceSpansFrom.induct header nests lines with
  | case1 index hlt hheader ih =>
    rw [braceSpansFrom, if_pos hlt, hheader] at hspan
    exact ih hspan
  | case2 index hlt kind name hheader hblock ih =>
    rw [braceSpansFrom, if_pos hlt, hheader] at hspan
    dsimp only at hspan
    rw [hblock] at hspan
    exact ih hspan
  | case3 index hlt kind name hheader opening length hblock ih =>
    rw [braceSpansFrom, if_pos hlt, hheader] at hspan
    dsimp only at hspan
    rw [hblock] at hspan
    cases List.mem_cons.mp hspan with
    | inl hfirst => exact hfirst ▸ ⟨Nat.succ_pos _, hheader⟩
    | inr hrest => exact ih hrest
  | case4 index hlt =>
    rw [braceSpansFrom, if_neg hlt] at hspan
    exact absurd hspan List.not_mem_nil

/-- The scan reports declarations from a line on exactly when the headers from there on are
decided. -/
theorem braceSpansFrom_declarations_iff (index : ℕ) :
    (∀ span ∈ braceSpansFrom (javaHeader wordChar) (· = py "class") lines index,
        IsDeclaration wordChar lines span) ↔
      ∀ header ∈ headersFrom wordChar lines index, Decided wordChar lines header := by
  induction index using braceSpansFrom.induct (javaHeader wordChar) (· = py "class") lines with
  | case1 index hlt hheader ih =>
    rw [braceSpansFrom, if_pos hlt, hheader, headersFrom, if_pos hlt, hheader]
    exact ih
  | case2 index hlt kind name hheader hblock ih =>
    rw [braceSpansFrom, if_pos hlt, hheader, headersFrom, if_pos hlt, hheader]
    dsimp only
    rw [hblock, if_pos (.inr rfl), List.forall_mem_cons, and_iff_right]
    · exact ih
    · exact fun opening length hfound => absurd (hblock.symm.trans hfound) (by simp)
  | case3 index hlt kind name hheader opening length hblock ih =>
    rw [braceSpansFrom, if_pos hlt, hheader, headersFrom, if_pos hlt, hheader]
    dsimp only
    rw [hblock, List.forall_mem_cons, List.forall_mem_cons, isDeclaration_iff rfl hheader]
    by_cases hdecided : Decided wordChar lines index
    · obtain ⟨own, hown, hsum⟩ := decided_iff.mp hdecided opening length hblock
      rw [and_iff_right ⟨own, hown, by dsimp only; omega⟩, and_iff_right hdecided, hown,
        Option.map_some, Option.getD_some, hsum]
      by_cases hclass : kind = py "class"
      · rw [dif_pos (decide_eq_true hclass)] at ih
        rw [if_pos (decide_eq_true hclass), if_pos (.inl hclass)]
        exact ih
      · rw [dif_neg (by simpa using hclass), add_assoc index] at ih
        rw [if_neg (by simpa using hclass), if_neg (by simpa using hclass), add_assoc index]
        exact ih
    · refine iff_of_false (fun hspans => hdecided ?_) fun hheaders => hdecided hheaders.1
      obtain ⟨own, hown, hend⟩ := hspans.1
      refine decided_iff.mpr fun opened closed hfound => ⟨own, hown, ?_⟩
      obtain ⟨rfl, rfl⟩ := Prod.mk.inj (Option.some.inj (hblock.symm.trans hfound))
      dsimp only at hend
      omega
  | case4 index hlt =>
    rw [braceSpansFrom, if_neg hlt, headersFrom, if_neg hlt]
    exact iff_of_true (fun _ hspan => absurd hspan List.not_mem_nil)
      fun _ hheader => absurd hheader List.not_mem_nil

theorem exists_same_of_mem {spans : List SymbolSpan} (hspan : span ∈ spans) :
    ∃ kept ∈ dedupeSpans spans, sameSpan kept span = true := by
  have hkept : ∀ (ordered kept : List SymbolSpan),
      (∃ same ∈ kept, sameSpan same span = true) ∨ span ∈ ordered →
      ∃ same ∈ ordered.foldl
          (fun kept span => if kept.any (sameSpan · span) then kept else kept ++ [span]) kept,
        sameSpan same span = true := by
    intro ordered
    induction ordered with
    | nil => exact fun kept hmem => hmem.resolve_right List.not_mem_nil
    | cons next rest ih =>
      intro kept hmem
      rw [List.foldl_cons]
      refine ih _ ?_
      rcases hmem with ⟨same, hsame, heq⟩ | hmem
      · refine .inl ⟨same, ?_, heq⟩
        split
        · exact hsame
        · exact List.mem_append_left _ hsame
      · cases List.mem_cons.mp hmem with
        | inr hrest => exact .inr hrest
        | inl hfirst =>
          subst hfirst
          left
          split
          · next hany => exact List.any_eq_true.mp hany
          · refine ⟨span, List.mem_append_right _ (List.mem_singleton.mpr rfl), ?_⟩
            simp [sameSpan]
  obtain ⟨kept, hmem, hsame⟩ := hkept _ [] (.inr (List.mem_mergeSort.mpr hspan))
  exact ⟨kept, List.mem_mergeSort.mpr hmem, hsame⟩

/-- Only declarations are reported exactly when every header outside the bodies of methods
is decided. -/
theorem extractJavaSpans_declarations_iff (wordChar : CodePoint → Bool) (lines : List PyStr) :
    (∀ span ∈ extractJavaSpans wordChar lines, IsDeclaration wordChar lines span) ↔
      ∀ header ∈ headersFrom wordChar lines 0, Decided wordChar lines header := by
  rw [← braceSpansFrom_declarations_iff, extractJavaSpans]
  refine ⟨fun hspans span hspan => ?_, fun hspans span hspan =>
    hspans span (dedupeSpans_subset _ hspan)⟩
  obtain ⟨kept, hkept, hsame⟩ := exists_same_of_mem hspan
  obtain ⟨hpos, hheader⟩ := header_of_mem_braceSpansFrom hspan
  obtain ⟨hkeptPos, hkeptHeader⟩ := header_of_mem_braceSpansFrom (dedupeSpans_subset _ hkept)
  simp only [sameSpan, Bool.and_eq_true, decide_eq_true_eq] at hsame
  obtain ⟨⟨hstart, hend⟩, -⟩ := hsame
  obtain ⟨own, hown, howned⟩ := (isDeclaration_iff (by omega) hkeptHeader).mp (hspans kept hkept)
  refine (isDeclaration_iff (by omega) hheader).mpr ⟨own, ?_, ?_⟩
  · rw [← hstart, hown]
  · rw [← hend, ← hstart, howned]

/-- A class with an abstract method before another one. -/
def abstractThenConcrete : List PyStr :=
  [py "abstract class A \x7b", py "  public abstract void a();", py "  public void b() \x7b",
    py "  \x7d",
    py "\x7d"]

/-- The abstract method has the body of the other one as its span. -/
theorem abstract_method_has_span :
    ∃ span ∈ extractJavaSpans (fun _ => false) abstractThenConcrete,
      span.startLine = 2 ∧ span.endLine = 4 ∧
        ¬IsDeclaration (fun _ => false) abstractThenConcrete span := by
  have hspan : { name := py "a", kind := py "method", startLine := 2, endLine := 4 } ∈
      braceSpansFrom (javaHeader fun _ => false) (· = py "class") abstractThenConcrete 0 := by
    decide +kernel
  obtain ⟨kept, hkept, hsame⟩ := exists_same_of_mem hspan
  simp only [sameSpan, Bool.and_eq_true, decide_eq_true_eq] at hsame
  obtain ⟨⟨hstart, hend⟩, -⟩ := hsame
  refine ⟨kept, hkept, hstart, hend, ?_⟩
  rintro ⟨index, opening, length, hindex, -, hown, -⟩
  obtain rfl : index = 1 := by omega
  have hnone : ownBlock (fun _ => false) abstractThenConcrete 1 = none := by decide +kernel
  exact absurd (hnone.symm.trans hown) (by simp)

end Declarations

end RootSeeker.CodeIndex
