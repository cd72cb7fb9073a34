import RootSeeker.Analysis.LogText
import RootSeeker.Contracts.Common
import RootSeeker.Core.DictUpdate
import RootSeeker.Core.PatternMeaning
import RootSeeker.Python.Lines
import RootSeeker.Python.Urls
import RootSeeker.Python.Words

/-!
# Call chains

`extract_call_chain_summary` prints the application frames of a Java stack trace,
those of the innermost cause first, and `parse_call_chain_frame` reads one such
frame back.
-/

namespace RootSeeker.Analysis

open Python Patterns Contracts

/-- What `\w` and `\d` accept outside ASCII, and the value of a digit there. -/
structure WordTables where
  wordChar : CodePoint → Bool
  digitValue : CodePoint → Option ℕ
  not_space : ∀ c, isAscii c = false → wordChar c = true → isSpace c = false

def WordTables.isWord (tables : WordTables) (c : CodePoint) : Bool :=
  isWordChar tables.wordChar c

/-- `\d`. -/
def WordTables.isDecimal (tables : WordTables) (c : CodePoint) : Bool :=
  if isAscii c then isDigit c else (tables.digitValue c).isSome

/-- What `int` makes of one digit. -/
def WordTables.valueOf (tables : WordTables) (c : CodePoint) : ℕ :=
  if isAscii c then c.val - 0x30 else (tables.digitValue c).getD 0

def dot : CodePoint := CodePoint.ofChar '.'
def dollar : CodePoint := CodePoint.ofChar '$'
def openParen : CodePoint := CodePoint.ofChar '('
def closeParen : CodePoint := CodePoint.ofChar ')'

/-- `$`: the end, or a line feed there. -/
def atEnd (rest : PyStr) : Bool :=
  rest = [] || rest = [newline]

/-! ## Printing frames -/

/-- `_FRAMEWORK_PREFIXES`. -/
def frameworkPrefixes : List PyStr :=
  [py "org.springframework.", py "org.apache.catalina.", py "org.apache.coyote.",
    py "org.apache.tomcat.", py "javax.servlet.", py "java.lang.", py "sun.reflect.",
    py "com.sun.proxy.", py "org.mybatis.", py "org.apache.ibatis.", py "org.apache.skywalking.",
    py "jdk.internal.", py "java.util.concurrent.", py "java.util.Base64",
    py "java.lang.Thread.", py "com.mysql.cj.", py "com.zaxxer.hikari.",
    py "com.github.pagehelper.", py "net.coolcollege.platform.", py "net.coolcollege.starter."]

/-- `_FRAMEWORK_MARKERS`. -/
def frameworkMarkers : List PyStr :=
  [py "CGLIB", py "FastClassBySpringCGLIB", py "$$Enhancer", py "MethodProxy",
    py "DelegatingMethodAccessorImpl", py "NativeMethodAccessorImpl",
    py "GeneratedMethodAccessor", py "InstMethodsInter", py "auxiliary$", py "original$",
    py "accessor$", py "ProxyPreparedStatement", py "HikariProxy"]

section Patterns

variable (tables : WordTables)

/-- `[\w.$]`. -/
def isQualifiedChar (c : CodePoint) : Bool :=
  tables.isWord c || c = dot || c = dollar

/-- `[\w$<>]`. -/
def isMethodChar (c : CodePoint) : Bool :=
  tables.isWord c || c ∈ py "$<>"

/-- `_JAVA_FRAME_RE`. -/
def javaFrame : Pattern CodePoint :=
  sequence [many (one isSpace), literally (py "at"), atLeastOne (one isSpace),
    group (atLeastOne (one (isQualifiedChar tables))), literally (py "."),
    group (atLeastOne (one (isMethodChar tables))), literally (py "("),
    group (atLeastOne (one (· ≠ closeParen))), literally (py ")"),
    many (one isSpace), lookahead atEnd]

/-- The parenthesis of `_FRAME_SUMMARY_RE`. -/
def frameLocation : Pattern CodePoint :=
  sequence [atLeastOne (one isSpace), literally (py "("),
    group (atLeastOne (one fun c => c ≠ colonChar ∧ c ≠ closeParen)),
    optional (sequence [literally (py ":"), group (atLeastOne (one tables.isDecimal))]),
    literally (py ")")]

/-- `_FRAME_SUMMARY_RE`. -/
def frameSummary : Pattern CodePoint :=
  sequence [group (atLeastOne (one (isQualifiedChar tables))), literally (py "."),
    group (atLeastOne (one (isMethodChar tables))), optional (frameLocation tables),
    many (one isSpace), lookahead atEnd]

end Patterns

/-- A frame as a stack trace prints it. -/
structure PrintedFrame where
  qualified : PyStr
  method : PyStr
  location : PyStr
  deriving DecidableEq

/-- `qualified.rsplit(".", 1)[-1]`. -/
def shortClassName (qualified : PyStr) : PyStr :=
  qualified.rtakeWhile (· ≠ dot)

def isFrameworkFrame (qualified method : PyStr) : Bool :=
  let target := qualified ++ [dot] ++ method
  frameworkPrefixes.any (·.isPrefixOf target) ||
    (method = py "doFilter" && (py "Filter").isSuffixOf (shortClassName qualified)) ||
    frameworkMarkers.any (· <:+: target)

def PrintedFrame.summary (frame : PrintedFrame) : PyStr :=
  shortClassName frame.qualified ++ dot :: (frame.method ++ py " (" ++ frame.location ++ py ")")

section Frames

variable (tables : WordTables)

def readFrameLine (line : PyStr) : Option PrintedFrame :=
  match matchStart (javaFrame tables) line with
  | some [qualified, method, location] => some ⟨qualified, method, location⟩
  | _ => none

/-- The frames of a text that are not those of a framework. -/
def applicationFrames (text : PyStr) : List PrintedFrame :=
  ((splitLines text).filterMap (readFrameLine tables)).filter fun frame =>
    !isFrameworkFrame frame.qualified frame.method

/-- `_frames_from_text`. -/
def framesFromText (text : PyStr) : List PyStr :=
  ((applicationFrames tables text).map PrintedFrame.summary).foldl Dict.addKey []

/-- `re.split` in front of every occurrence of the marker. -/
def splitBefore (marker current : PyStr) : PyStr → List PyStr
  | [] => [current]
  | c :: rest =>
    if marker.isPrefixOf (c :: rest) then current :: splitBefore marker [c] rest
    else splitBefore marker (current ++ [c]) rest

/-- The parts of a log text, one for each cause. -/
def causeBlocks (text : PyStr) : List PyStr :=
  (splitBefore (py "Caused by:") [] text).filter (strip · ≠ [])

/-- The blocks in the order in which their frames are wanted. -/
def orderedBlocks (text : PyStr) : List PyStr :=
  if 1 < (causeBlocks text).length then (causeBlocks text).reverse else causeBlocks text

/-- Append the frames that are not there yet, until there are enough. -/
def collectFrames (maxFrames : ℤ) : List PyStr → List PyStr → List PyStr
  | frames, [] => frames
  | frames, frame :: rest =>
    if frame ∈ frames then collectFrames maxFrames frames rest
    else if maxFrames ≤ (frames ++ [frame]).length then frames ++ [frame]
    else collectFrames maxFrames (frames ++ [frame]) rest

/-- `extract_call_chain_summary(text, max_frames=...)`. -/
def extractCallChainSummary (std : Stdlib) (text : PyStr) (maxFrames : ℤ) : List PyStr :=
  let text := unwrapEmbeddedLogText std (.str text)
  if text = [] then []
  else collectFrames maxFrames [] ((orderedBlocks text).flatMap (framesFromText tables))

end Frames

/-! ## Reading a frame back -/

/-- The structured fields of a frame. -/
structure ParsedFrame where
  className : PyStr
  methodName : PyStr
  filePath : PyStr
  line : ℕ
  summary : PyStr

/-- `int(text)` of digits; the interpreter refuses more than 4300 of them. -/
def intOfDigits (tables : WordTables) (digits : PyStr) : Except PyError ℕ :=
  if digits.length ≤ 4300 then
    .ok (digits.foldl (fun value c => value * 10 + tables.valueOf c) 0)
  else .error (.valueError (py "Exceeds the limit (4300 digits) for integer string conversion"))

/-- The fields of a match, where the file and the line may be missing. -/
def parsedFrame (tables : WordTables) (value className methodName : PyStr) :
    List PyStr → Except PyError ParsedFrame
  | [] => .ok ⟨className, methodName, shortClassName className ++ py ".java", 0, value⟩
  | file :: digits =>
    let filePath := if strip file = [] then shortClassName className ++ py ".java" else strip file
    match digits.head? with
    | none => .ok ⟨className, methodName, filePath, 0, value⟩
    | some digits =>
      (intOfDigits tables digits).map fun line =>
        ⟨className, methodName, filePath, line, value⟩

/-- `parse_call_chain_frame`. -/
def parseCallChainFrame (tables : WordTables) (frame : PyStr) :
    Except PyError (Option ParsedFrame) :=
  if strip frame = [] then .ok none
  else
    match matchStart (frameSummary tables) (strip frame) with
    | some (className :: methodName :: located) =>
      (parsedFrame tables (strip frame) className methodName located).map some
    | _ => .ok none

end RootSeeker.Analysis
