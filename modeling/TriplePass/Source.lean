import TriplePass.FileTree
import TriplePass.Text.Content
import TriplePass.Text.Token

/-! # Sources

A source is classified by its text alone: whether it declares an entry point and whether it has a
unit test. Both are plain scans, so a word in a comment counts. A source that cannot be read has
neither.
-/
namespace TriplePass

structure Source where
  path : String
  isEntryPoint : Bool := false
  hasTests : Bool := false
  deriving DecidableEq, Repr

namespace Source

/-- A program has its own entry point, and a source without tests has nothing to run. -/
def skipsRun (s : Source) : Bool :=
  s.isEntryPoint || !s.hasTests

def suffix : String := ".d"

/-- An argument that names a source is no switch and ends in the extension of the language. -/
def isArgument (arg : String) : Bool :=
  !Text.startsWith arg "-" && Text.endsWith arg suffix

def signatures : List String :=
  ["void main(", "int main("]

def declaresEntryPoint (text : List Char) : Bool :=
  signatures.any fun s => Text.occursIn s.toList text

def testKeyword : String := "unittest"

def hasTestBlock (text : List Char) : Bool :=
  Text.hasToken testKeyword.toList text

def ofText (path : String) (text : List Char) : Source :=
  ⟨path, declaresEntryPoint text, hasTestBlock text⟩

def ofContent (path : String) : Except Errno Bytes → Source
  | .ok content => ofText path (Text.ofContent content)
  | .error _ => { path }

/-- Classifies the source that an argument names, seen from a directory; nothing is said of a name
with a NUL in it. -/
def classify? (t : FileTree) (workingDir : Place) (dir : Path) (arg : String) : Option Source :=
  let path := dir.join (Path.ofString arg)
  if path.hasNul then none else some (ofContent arg (t.read workingDir path))

end Source
end TriplePass
