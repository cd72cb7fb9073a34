import RootSeeker.Python.Repr

/-!
# The frames of a call chain in a source file

Which methods and which line of a file the frames of a call chain name.  The
reading of one frame is a parameter.
-/

namespace RootSeeker.Analysis

open Python

/-- What `parse_call_chain_frame` reads in a frame. -/
structure CallChainFrame where
  methodName : PyStr
  filePath : PyStr
  line : ℕ

def slash : CodePoint := CodePoint.ofChar '/'

/-- The file name of a path, in lower case. -/
def fileNeedle (std : Stdlib) (path : PyStr) : PyStr :=
  let normalized := path.map fun c => if c = backslash then slash else c
  lower std (normalized.rtakeWhile (· ≠ slash))

def sameSourceFile (needle fileName : PyStr) : Bool :=
  fileName = needle || fileName.isSuffixOf needle || needle.isSuffixOf fileName

def constructorNames : List PyStr := [py "<init>", py "<clinit>"]

/-- Append the method of a frame of this file that is not listed yet. -/
def appendChainMethod (std : Stdlib) (needle : PyStr) (found : List (PyStr × Option ℕ))
    (frame : CallChainFrame) : List (PyStr × Option ℕ) :=
  let fileName := fileNeedle std frame.filePath
  let name := strip frame.methodName
  if fileName = [] ∨ sameSourceFile needle fileName = false then found
  else if name = [] ∨ name ∈ constructorNames ∨ name ∈ found.map Prod.fst then found
  else found ++ [(name, if frame.line = 0 then none else some frame.line)]

/-- The methods of the call chain in this file, with their lines. -/
def chainMethodsForPath (std : Stdlib) (parseFrame : PyStr → Option CallChainFrame)
    (path : PyStr) (callChain : List PyStr) : List (PyStr × Option ℕ) :=
  let needle := fileNeedle std path
  if needle = [] then []
  else (callChain.filterMap parseFrame).foldl (appendChainMethod std needle) []

/-- The first line of the call chain in this file. -/
def faultLineForPath (std : Stdlib) (parseFrame : PyStr → Option CallChainFrame)
    (path : PyStr) (callChain : List PyStr) : Option ℕ :=
  (chainMethodsForPath std parseFrame path callChain).findSome? Prod.snd

end RootSeeker.Analysis
