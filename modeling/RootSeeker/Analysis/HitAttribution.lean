import RootSeeker.Analysis.CallerHits
import RootSeeker.Analysis.FrameHandover

/-!
# The method around a hit

A search hit in the body of a method is served with the file.  It is attributed to
that method when no source that is asked before the method's own header names
another one.
-/

namespace RootSeeker.Analysis

open Python Patterns Contracts

/-! ## Names in lines -/

variable {text name : PyStr}

section Names

variable {tables : WordTables}

theorem lastMethod_append (above below : List PyStr) :
    lastMethod tables (above ++ below) = (lastMethod tables below).or (lastMethod tables above) := by
  rw [lastMethod, List.reverse_append, List.findSome?_append]
  rfl

theorem lastMethod_singleton (line : PyStr) :
    lastMethod tables [line] = lineMethod tables line := by
  rw [lastMethod, List.reverse_singleton, List.findSome?_singleton]

/-- Below its header a method is the last one that a line names, unless one of the lines
there names another. -/
theorem lastMethod_window {lines : List PyStr} {first header last : ℕ} (hfirst : first ≤ header)
    (hlast : header < last) (hheader : lines[header]?.bind (lineMethod tables) = some name) :
    lastMethod tables ((lines.take last).drop first) =
      some ((lastMethod tables ((lines.take last).drop (header + 1))).getD name) := by
  have hbound : header < (lines.take last).length := by
    obtain ⟨line, hline, _⟩ := Option.bind_eq_some_iff.mp hheader
    have hlength := (List.getElem?_eq_some_iff.mp hline).1
    rw [List.length_take]
    omega
  have hline : lineMethod tables (lines.take last)[header] = some name := by
    have hsame : lines[header]? = some (lines.take last)[header] := by
      rw [← List.getElem?_eq_getElem hbound, List.getElem?_take_of_lt hlast]
    rw [hsame] at hheader
    exact hheader
  have hsplit : (lines.take last).drop first =
      ((lines.take last).take header).drop first ++
        ([(lines.take last)[header]] ++ (lines.take last).drop (header + 1)) := by
    rw [List.singleton_append, List.getElem_cons_drop, ← List.drop_append_of_le_length,
      List.take_append_drop]
    rw [List.length_take]
    omega
  rw [hsplit, lastMethod_append, lastMethod_append, lastMethod_singleton, hline]
  cases lastMethod tables ((lines.take last).drop (header + 1)) with
  | none => rfl
  | some other => rfl

end Names

/-- The name comes first in a list, the skipped names aside. -/
def ComesFirst (skipped : PyStr → Prop) (names : List PyStr) (name : PyStr) : Prop :=
  ∃ before after, names = before ++ name :: after ∧ ¬skipped name ∧
    ∀ other ∈ before, skipped other

theorem find?_eq_some_iff_comesFirst {skipped : PyStr → Prop} [DecidablePred skipped]
    {names : List PyStr} :
    names.find? (fun other => !decide (skipped other)) = some name ↔
      ComesFirst skipped names name := by
  rw [List.find?_eq_some_iff_append]
  constructor
  · intro ⟨hname, before, after, hnames, hbefore⟩
    exact ⟨before, after, hnames, by simpa using hname, fun other hother => by
      simpa using hbefore other hother⟩
  · intro ⟨before, after, hnames, hname, hbefore⟩
    exact ⟨by simpa using hname, before, after, hnames, fun other hother => by
      simpa using hbefore other hother⟩

theorem headerName_eq_some_iff {tables : WordTables} :
    headerName tables text = some name ↔
      ComesFirst (· ∈ controlKeywords) (namesFound (javaMethodHeader tables) text) name := by
  rw [← find?_eq_some_iff_comesFirst, headerName]
  simp only [decide_not]

theorem headerName_eq_none_iff {tables : WordTables} :
    headerName tables text = none ↔
      ∀ name ∈ namesFound (javaMethodHeader tables) text, name ∈ controlKeywords := by
  simp [headerName]

/-- The names in front of the parentheses of a text, the last one first. -/
def calledBackwards (tables : WordTables) (text : PyStr) : List PyStr :=
  (namesFound (calledName tables) text).reverse

theorem guessMethodFromFilename_eq_some_iff {tables : WordTables} {className : PyStr} :
    guessMethodFromFilename tables className text = some name ↔
      ComesFirst (fun token => token ∈ controlKeywords ∨ token = className)
        (calledBackwards tables text) name := by
  rw [← find?_eq_some_iff_comesFirst, guessMethodFromFilename, calledBackwards]
  simp only [← not_or, decide_not]

theorem lastMethod_eq_some_iff {tables : WordTables} {lines : List PyStr} :
    lastMethod tables lines = some name ↔
      ∃ above line under, lines = above ++ line :: under ∧
        lineMethod tables line = some name ∧ ∀ other ∈ under, lineMethod tables other = none := by
  rw [lastMethod, List.findSome?_eq_some_iff]
  constructor
  · intro ⟨front, line, back, hlines, hline, hfront⟩
    refine ⟨back.reverse, line, front.reverse, ?_, hline, fun other hother => ?_⟩
    · rw [← List.reverse_reverse lines, hlines]
      simp
    · exact hfront other (List.mem_reverse.mp hother)
  · intro ⟨above, line, under, hlines, hline, hunder⟩
    refine ⟨under.reverse, line, above.reverse, ?_, hline, fun other hother => ?_⟩
    · rw [hlines]
      simp
    · exact hunder other (List.mem_reverse.mp hother)

/-! ## Hits in files -/

/-- A method of a file; lines are counted from zero. -/
structure MethodExtent where
  name : PyStr
  header : ℕ
  last : ℕ

/-- A file in which a line is the header of each method. -/
structure JavaFile (tables : WordTables) where
  lines : List PyStr
  methods : List MethodExtent
  headers : ∀ method ∈ methods,
    lines[method.header]?.bind (lineMethod tables) = some method.name

/-- The innermost method with the line in it. -/
structure JavaFile.Encloses {tables : WordTables} (file : JavaFile tables) (method : MethodExtent)
    (index : ℕ) : Prop where
  mem : method ∈ file.methods
  after : method.header ≤ index
  upTo : index ≤ method.last
  innermost : ∀ other ∈ file.methods, other.header ≤ index → index ≤ other.last →
    other.header ≤ method.header

/-- A reader that returns the lines asked for, and maybe more around them. -/
structure Serves (std : Stdlib) (readCode : ReadCode) (path : PyStr) (repo : Json)
    (lines : List PyStr) (part : ℤ × ℤ) (first last : ℕ) : Prop where
  reads : ∃ payload, readPart readCode path repo part = .ok payload ∧
    splitLines (contentOf std payload) = (lines.take last).drop first
  starts : (first : ℤ) < part.1
  stops : part.2 ≤ last

/-- A hit on a line of a method whose header is near, and the reader of its file. -/
structure BodyHit (tables : WordTables) (std : NumberStdlib) where
  file : JavaFile tables
  method : MethodExtent
  index : ℕ
  encloses : file.Encloses method index
  near : index ≤ method.header + 60
  hit : Fields
  /-- The text of the line, maybe without the blanks around it. -/
  snippet : file.lines[index]?.map strip = some (strip (hitFieldText std hit "snippet"))
  line : Dict.get? hit (py "line_start") = some (.int (index + 1))
  readCode : ReadCode
  first : ℕ
  last : ℕ
  serves : Serves std.toStdlib readCode (hitFieldText std hit "path") (hitField hit "repo") file.lines
    (contextOf (index + 1)) first last

namespace BodyHit

variable {tables : WordTables} {std : NumberStdlib} (scene : BodyHit tables std)

def snippetText : PyStr := hitFieldText std scene.hit "snippet"

def className : PyStr := classNameFromPath tables (hitFieldText std scene.hit "path")

/-- The lines that are read below the header of the enclosing method. -/
def linesBelow : List PyStr :=
  (scene.file.lines.take scene.last).drop (scene.method.header + 1)

def headerNames : List PyStr := namesFound (javaMethodHeader tables) scene.snippetText

/-- The name stands in front of the last parenthesis on the line that follows a name, those
after control keywords and the name of the class aside. -/
def IsLastCall (name : PyStr) : Prop :=
  ComesFirst (fun token => token ∈ controlKeywords ∨ token = scene.className)
    (calledBackwards tables scene.snippetText) name

/-- The name is that of the enclosing method, or no report is made under it. -/
def Harmless (calleeMethod calleeClass name : PyStr) : Prop :=
  name = scene.method.name ∨ scene.className = calleeClass ∧ name = calleeMethod

/-- The texts on the line of the hit and between it and the header name no other method. -/
structure NamesAgree (calleeMethod calleeClass : PyStr) : Prop where
  onLine : ∀ name, ComesFirst (· ∈ controlKeywords) scene.headerNames name →
    scene.Harmless calleeMethod calleeClass name
  called : (∀ name ∈ scene.headerNames, name ∈ controlKeywords) →
    ∀ name, scene.IsLastCall name → name = calleeMethod ∨ name = scene.method.name
  below : (∀ name ∈ scene.headerNames, name ∈ controlKeywords) →
    (∀ name, scene.IsLastCall name → name = calleeMethod) →
      ∀ above line under name, scene.linesBelow = above ++ line :: under →
        lineMethod tables line = some name →
          (∀ other ∈ under, lineMethod tables other = none) →
            scene.Harmless calleeMethod calleeClass name

/-- The last method named below the header of the enclosing one. -/
def lowerMethod : Option PyStr := lastMethod tables scene.linesBelow

/-- What the last parenthesis on the line seems to call, unless that is the callee. -/
def otherCall (calleeMethod : PyStr) : Option PyStr :=
  (guessMethodFromFilename tables scene.className scene.snippetText).filter (· ≠ calleeMethod)

variable {calleeMethod : PyStr}

theorem otherCall_eq_some_iff :
    scene.otherCall calleeMethod = some name ↔ scene.IsLastCall name ∧ name ≠ calleeMethod := by
  rw [otherCall, Option.filter_eq_some_iff, guessMethodFromFilename_eq_some_iff, decide_eq_true_iff]
  rfl

theorem otherCall_eq_none_iff :
    scene.otherCall calleeMethod = none ↔ ∀ name, scene.IsLastCall name → name = calleeMethod := by
  rw [Option.eq_none_iff_forall_ne_some]
  constructor
  · intro hnone name hcall
    by_contra hne
    exact hnone name (scene.otherCall_eq_some_iff.mpr ⟨hcall, hne⟩)
  · intro hcallee name hname
    obtain ⟨hcall, hne⟩ := scene.otherCall_eq_some_iff.mp hname
    exact hne (hcallee name hcall)

theorem enclosingMethod_eq :
    enclosingMethodFromContext tables std scene.readCode (hitFieldText std scene.hit "path")
        (hitField scene.hit "repo") (hitField scene.hit "line_start") =
      .ok (some (scene.lowerMethod.getD scene.method.name)) := by
  obtain ⟨payload, hread, hlines⟩ := scene.serves.reads
  have hfield : hitField scene.hit "line_start" = .int (scene.index + 1) := by
    rw [hitField, scene.line]
    rfl
  have hnumber : lineNumber std (.int (scene.index + 1)) = .ok (scene.index + 1) := by
    have htruthy : (Json.int (scene.index + 1)).truthy = true := by
      simp only [Json.truthy, decide_eq_true_eq]
      omega
    rw [lineNumber, if_pos htruthy]
    rfl
  have hfirst : scene.first ≤ scene.method.header := by
    have hstart := scene.serves.starts
    have hnear := scene.near
    simp only [contextOf] at hstart
    omega
  have hlast : scene.method.header < scene.last := by
    have hstop := scene.serves.stops
    have hafter := scene.encloses.after
    simp only [contextOf] at hstop
    omega
  have hmethod := lastMethod_window hfirst hlast
    (scene.file.headers scene.method scene.encloses.mem)
  rw [enclosingMethodFromContext, hfield, hnumber]
  change (readPart _ _ _ _).map _ = _
  rw [hread]
  change Except.ok (lastMethod tables (splitLines (contentOf std.toStdlib payload))) = _
  rw [hlines, hmethod]
  rfl

/-- The reported callers are those of the method. -/
def Attributed (calleeMethod calleeClass : PyStr) : Prop :=
  ∀ caller, callerFromHit tables std (some scene.readCode) scene.hit calleeMethod calleeClass =
    .ok (some caller) → caller.callerMethod = scene.method.name

theorem attributed_of_noCall (hskip : isNoCall tables std scene.hit calleeMethod)
    (calleeClass : PyStr) : scene.Attributed calleeMethod calleeClass := by
  intro caller hcaller
  rw [callerFromHit, if_pos hskip] at hcaller
  cases hcaller

theorem attributed_of_noClass (hclass : scene.className = []) (calleeMethod calleeClass : PyStr) :
    scene.Attributed calleeMethod calleeClass := by
  intro caller hcaller
  have hnone : ∀ name, reportedCaller tables std scene.hit calleeMethod calleeClass name = none :=
    fun name => if_pos (Or.inl hclass)
  rw [callerFromHit] at hcaller
  split at hcaller
  · cases hcaller
  · cases hnames : callerMethodOf tables std (some scene.readCode) scene.hit calleeMethod with
    | error error =>
      rw [hnames] at hcaller
      cases hcaller
    | ok name =>
      rw [hnames] at hcaller
      cases name with
      | none => cases hcaller
      | some name =>
        have hreported : reportedCaller tables std scene.hit calleeMethod calleeClass name =
            some caller := Except.ok.inj hcaller
        rw [hnone name] at hreported
        cases hreported

/-- Once the hit is a call in a class, the name that is found decides. -/
theorem attributed_iff_harmless {calleeClass : PyStr}
    (hcall : ¬isNoCall tables std scene.hit calleeMethod) (hclass : scene.className ≠ [])
    (hname : callerMethodOf tables std (some scene.readCode) scene.hit calleeMethod =
      .ok (some name)) :
    scene.Attributed calleeMethod calleeClass ↔ scene.Harmless calleeMethod calleeClass name := by
  have hvalue : callerFromHit tables std (some scene.readCode) scene.hit calleeMethod calleeClass =
      .ok (reportedCaller tables std scene.hit calleeMethod calleeClass name) := by
    rw [callerFromHit, if_neg hcall, hname]
    rfl
  rw [Attributed, hvalue, Harmless]
  by_cases hself : scene.className = calleeClass ∧ name = calleeMethod
  · have hnone : reportedCaller tables std scene.hit calleeMethod calleeClass name = none :=
      if_pos (Or.inr hself)
    rw [hnone]
    exact ⟨fun _ => Or.inr hself, fun _ _ hcaller => by cases hcaller⟩
  · have hsome : reportedCaller tables std scene.hit calleeMethod calleeClass name =
        some (namedCaller tables std scene.hit name) :=
      if_neg fun hdropped => hdropped.elim hclass hself
    rw [hsome]
    constructor
    · intro hattributed
      exact Or.inl (hattributed _ rfl)
    · intro hharmless caller hcaller
      rw [← Option.some.inj (Except.ok.inj hcaller)]
      exact hharmless.resolve_right hself

theorem callerMethodFromSnippet_eq (hclass : scene.className ≠ []) :
    callerMethodFromSnippet tables (hitFieldText std scene.hit "snippet")
        (hitFieldText std scene.hit "path") calleeMethod =
      (headerName tables scene.snippetText).or (scene.otherCall calleeMethod) := by
  have hnonempty : classNameFromPath tables (hitFieldText std scene.hit "path") ≠ [] := hclass
  rw [callerMethodFromSnippet, if_neg hnonempty]
  rfl

/-- The three sources of a name, in their order. -/
theorem callerMethodOf_eq (hclass : scene.className ≠ []) :
    callerMethodOf tables std (some scene.readCode) scene.hit calleeMethod =
      .ok (some (((headerName tables scene.snippetText).or
        (scene.otherCall calleeMethod)).getD
          (scene.lowerMethod.getD scene.method.name))) := by
  unfold callerMethodOf
  rw [scene.callerMethodFromSnippet_eq hclass]
  cases (headerName tables scene.snippetText).or (scene.otherCall calleeMethod) with
  | some name => rfl
  | none => exact scene.enclosingMethod_eq

/-- The texts name no other method exactly when the first source with a name gives a
harmless one. -/
theorem namesAgree_iff (calleeMethod calleeClass : PyStr) :
    scene.NamesAgree calleeMethod calleeClass ↔
      scene.Harmless calleeMethod calleeClass
        (((headerName tables scene.snippetText).or (scene.otherCall calleeMethod)).getD
          (scene.lowerMethod.getD scene.method.name)) := by
  cases honLine : headerName tables scene.snippetText with
  | some name =>
    have hfirst := headerName_eq_some_iff.mp honLine
    have hsome : ¬∀ name ∈ scene.headerNames, name ∈ controlKeywords := by
      intro hall
      rw [headerName_eq_none_iff.mpr hall] at honLine
      cases honLine
    constructor
    · intro hagree
      exact hagree.onLine name hfirst
    · intro hharmless
      refine ⟨fun other hother => ?_, fun hall => absurd hall hsome, fun hall => absurd hall hsome⟩
      have hsame := honLine.symm.trans (headerName_eq_some_iff.mpr hother)
      exact Option.some.inj hsame ▸ hharmless
  | none =>
    have hall := headerName_eq_none_iff.mp honLine
    have hline : ∀ name, ComesFirst (· ∈ controlKeywords) scene.headerNames name →
        scene.Harmless calleeMethod calleeClass name := by
      intro name hname
      rw [headerName_eq_some_iff.mpr hname] at honLine
      cases honLine
    cases hcalled : scene.otherCall calleeMethod with
    | some name =>
      obtain ⟨hcall, hother⟩ := scene.otherCall_eq_some_iff.mp hcalled
      constructor
      · intro hagree
        exact Or.inl ((hagree.called hall name hcall).resolve_left hother)
      · intro hharmless
        have hname : name = scene.method.name :=
          hharmless.resolve_right fun hself => hother hself.2
        refine ⟨hline, fun _ found hfound => ?_, fun _ hcallee => ?_⟩
        · by_cases hself : found = calleeMethod
          · exact Or.inl hself
          · have hsame := hcalled.symm.trans (scene.otherCall_eq_some_iff.mpr ⟨hfound, hself⟩)
            exact Or.inr (Option.some.inj hsame ▸ hname)
        · exact absurd (hcallee name hcall) hother
    | none =>
      have hcallee := scene.otherCall_eq_none_iff.mp hcalled
      constructor
      · intro hagree
        cases hbelow : scene.lowerMethod with
        | none => exact Or.inl rfl
        | some name =>
          obtain ⟨above, line, under, hlines, hname, hunder⟩ := lastMethod_eq_some_iff.mp hbelow
          exact hagree.below hall hcallee above line under name hlines hname hunder
      · intro hharmless
        refine ⟨hline, fun _ name hname => Or.inl (hcallee name hname), ?_⟩
        intro _ _ above line under name hlines hname hunder
        have hbelow : scene.lowerMethod = some name :=
          lastMethod_eq_some_iff.mpr ⟨above, line, under, hlines, hname, hunder⟩
        rw [hbelow] at hharmless
        exact hharmless

/-- A hit is attributed to the method around it exactly when it is reported under no name
at all, or no header on its line, no other call on its line and no line below the header
gives another name first. -/
theorem attributed_iff (calleeMethod calleeClass : PyStr) :
    scene.Attributed calleeMethod calleeClass ↔
      isNoCall tables std scene.hit calleeMethod ∨ scene.className = [] ∨
        scene.NamesAgree calleeMethod calleeClass := by
  by_cases hcall : isNoCall tables std scene.hit calleeMethod
  · exact ⟨fun _ => Or.inl hcall, fun _ => scene.attributed_of_noCall hcall calleeClass⟩
  · by_cases hclass : scene.className = []
    · exact ⟨fun _ => Or.inr (Or.inl hclass),
        fun _ => scene.attributed_of_noClass hclass calleeMethod calleeClass⟩
    · rw [scene.attributed_iff_harmless hcall hclass (scene.callerMethodOf_eq hclass),
        ← scene.namesAgree_iff]
      exact ⟨fun hagree => Or.inr (Or.inr hagree),
        fun hone => (hone.resolve_left hcall).resolve_left hclass⟩

end BodyHit

/-! ## A call in an argument -/

def nestedCallFile : JavaFile asciiTables where
  lines := [py "public void run() \x7b", py "  bar(foo(x));", py "\x7d"]
  methods := [⟨py "run", 0, 2⟩]
  headers := by
    intro method hmethod
    rw [List.mem_singleton.mp hmethod]
    decide +kernel

def nestedCallHit : Fields :=
  [(py "path", .str (py "src/A.java")), (py "line_start", .int 2),
    (py "snippet", .str (py "bar(foo(x));"))]

def nestedCall : BodyHit asciiTables numberStdlib where
  file := nestedCallFile
  method := ⟨py "run", 0, 2⟩
  index := 1
  encloses := ⟨List.mem_singleton.mpr rfl, by decide, by decide, fun other hother _ _ => by
    rw [List.mem_singleton.mp hother]⟩
  near := by decide
  hit := nestedCallHit
  snippet := by decide
  line := rfl
  readCode _ _ _ := .ok (.obj [(py "content", .str (join [newline] (nestedCallFile.lines.take 2)))])
  first := 0
  last := 2
  serves := ⟨⟨_, rfl, by decide⟩, by decide, by decide⟩

/-- The method called in an argument is taken for the method around the call. -/
theorem argument_call_is_the_caller : ¬nestedCall.Attributed (py "bar") (py "Bar") := by
  intro hattributed
  have hfound : ((callerFromHit asciiTables numberStdlib (some nestedCall.readCode) nestedCallHit
      (py "bar") (py "Bar")).toOption.bind id).map Caller.callerMethod = some (py "foo") := by
    decide +kernel
  obtain ⟨caller, hcaller, hname⟩ := Option.map_eq_some_iff.mp hfound
  obtain ⟨result, hresult, rfl⟩ := Option.bind_eq_some_iff.mp hcaller
  cases hvalue : callerFromHit asciiTables numberStdlib (some nestedCall.readCode) nestedCallHit
      (py "bar") (py "Bar") with
  | error error =>
    rw [hvalue] at hresult
    cases hresult
  | ok found =>
    rw [hvalue] at hresult
    rw [Option.some.inj hresult] at hvalue
    have hmethod := hattributed caller hvalue
    rw [hname] at hmethod
    exact absurd hmethod (by decide)

end RootSeeker.Analysis
