import TriplePass.Source

/-! # Invocations

The compiler's own arguments end after the first `-run` and the file that follows it; the rest
belongs to the program that is run. Switches, sources and import directories are read off the
compiler's part only.
-/
namespace TriplePass

def runSwitch : String := "-run"
def mainSwitch : String := "-main"
def coverageSwitch : String := "-cov"
def importSwitch : String := "-I"
def sanitizerSwitch : String := "-fsanitize="
def compileOnlySwitch : String := "-o-"
def allowDeprecatedSwitch : String := "-d"

def isSwitch (arg : String) : Bool :=
  Text.startsWith arg "-"

def isSanitizer (arg : String) : Bool :=
  Text.startsWith arg sanitizerSwitch

/-- The arguments up to the first run file, and those behind it. -/
def splitAtRun : List String → List String × List String
  | [] => ([], [])
  | arg :: rest =>
    if arg = runSwitch then (arg :: rest.take 1, rest.drop 1)
    else
      let (compiler, program) := splitAtRun rest
      (arg :: compiler, program)

structure Invocation where
  compilerArguments : List String
  programArguments : List String
  deriving DecidableEq, Repr

namespace Invocation

def ofArguments (arguments : List String) : Invocation :=
  let (compiler, program) := splitAtRun arguments
  ⟨compiler, program⟩

def arguments (inv : Invocation) : List String :=
  inv.compilerArguments ++ inv.programArguments

def switches (inv : Invocation) : List String :=
  inv.compilerArguments.filter isSwitch

def sourcePaths (inv : Invocation) : List String :=
  inv.compilerArguments.filter Source.isArgument

/-- The directory that an import switch names. -/
def importDir? (arg : String) : Option String :=
  match Text.dropPrefix? importSwitch.toList arg.toList with
  | some (c :: cs) => some (String.ofList (c :: cs))
  | _ => none

def importDirs (inv : Invocation) : List String :=
  inv.switches.filterMap importDir?

def hasSwitch (inv : Invocation) (name : String) : Bool :=
  inv.switches.contains name

def countSwitch (inv : Invocation) (name : String) : Nat :=
  inv.switches.count name

def hasSwitchFrom (inv : Invocation) (head : String) : Bool :=
  inv.switches.any (Text.startsWith · head)

def requestsRun (inv : Invocation) : Bool :=
  inv.hasSwitch runSwitch

/-- Coverage may be asked for with a threshold. -/
def requestsCoverage (inv : Invocation) : Bool :=
  inv.hasSwitch coverageSwitch || inv.hasSwitchFrom (coverageSwitch ++ "=")

def sanitizerSwitches (inv : Invocation) : List String :=
  inv.switches.filter isSanitizer

theorem splitAtRun_append (arguments : List String) :
    (splitAtRun arguments).1 ++ (splitAtRun arguments).2 = arguments := by
  induction arguments with
  | nil => rfl
  | cons arg rest ih =>
    by_cases h : arg = runSwitch
    · simpa [splitAtRun, h] using List.take_append_drop 1 rest
    · simp [splitAtRun, h, ih]

theorem arguments_ofArguments (arguments : List String) :
    (ofArguments arguments).arguments = arguments :=
  splitAtRun_append arguments

end Invocation
end TriplePass
