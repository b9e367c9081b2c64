import TriplePass.Failure
import TriplePass.Invocation
import TriplePass.Resolver
import TriplePass.Settings.Basic
import TriplePass.Text.Quoted

/-! # Plans

Check always runs. The unit tests run when the invocation asks for it and no source is a program
or lacks tests. Lint joins when a linter is found and there are sources. As soon as two passes run
at once their output is captured, so that it does not interleave. An invocation that looks like
the harness analysing itself is refused before any program is looked for.
-/
namespace TriplePass

inductive Redirection where
  | inherit
  | capture
  deriving DecidableEq, Repr

def Redirection.name : Redirection → String
  | .inherit => "inherit"
  | .capture => "capture"

structure Plan where
  check : Bool
  run : Bool
  lint : Bool
  redirection : Redirection
  checkProgram : Option Path
  runProgram : Option Path := none
  lintProgram : Option Path := none
  checkSanitized : Bool := false
  runSanitized : Bool := false
  allocator : Option Path := none
  demangler : Option Path := none
  coverage : Bool := false
  sources : List Source := []
  deriving DecidableEq, Repr

namespace Plan

def isEligible (p : Plan) : Pass → Bool
  | .check => p.check
  | .run => p.run
  | .lint => p.lint

def eligible (p : Plan) : List Pass :=
  Pass.waitOrder.filter p.isEligible

def program (p : Plan) : Pass → Option Path
  | .check => p.checkProgram
  | .run => p.runProgram
  | .lint => p.lintProgram

def truthText (b : Bool) : String :=
  if b then "True" else "False"

def describe (p : Plan) : String :=
  "check=" ++ truthText p.check ++ " run=" ++ truthText p.run ++ " lint=" ++ truthText p.lint ++
    " redirect=" ++ p.redirection.name ++ " coverage=" ++ truthText p.coverage

end Plan

namespace Recursion

def harnessName : String := "xdmd"

def singleUse : List String :=
  [runSwitch, mainSwitch]

/-- An argument that is no switch and whose name, with or without extension, is the harness. -/
def namesHarness (arg : String) : Bool :=
  let path := Path.ofString arg
  !isSwitch arg && (path.name == harnessName || path.stem == harnessName)

def repeatedSwitch? (inv : Invocation) : Option String :=
  singleUse.find? fun s => 1 < inv.countSwitch s

/-- Why an invocation looks like the harness running itself, if it does. -/
def reason? (inv : Invocation) (env : Environment) (marker : String) : Option String :=
  if ((Dictionary.get? env marker).getD "") != "" then
    some ("already running inside " ++ harnessName ++ " ($" ++ marker ++ " is set)")
  else
    match repeatedSwitch? inv with
    | some s => some ("switch " ++ s ++ " given more than once")
    | none =>
      (inv.compilerArguments.find? namesHarness).map fun arg =>
        "argument " ++ Text.quoted arg ++ " refers to " ++ harnessName ++ " itself"

end Recursion

/-- A computation that looks programs up: it carries the resolver and may fail. -/
abbrev Lookup := EStateM Failure Resolver

namespace Lookup

def resolve (t : FileTree) (workingDir : Place) (name : String) : Lookup (Option Path) :=
  fun r =>
    let (answer, r) := r.resolve t workingDir name
    .ok answer r

def preferred (t : FileTree) (workingDir : Place) (names : List String) : Lookup (Option Path) :=
  fun r =>
    let (answer, r) := Resolver.preferred t workingDir r names
    .ok answer r

/-- A program that must be there. -/
def require (names : List String) : Option Path → Lookup Path
  | some path => pure path
  | none => throw (.harness (.programNotFound names))

end Lookup

namespace Plan

/-- The first path that leads to a file. -/
def firstFile (t : FileTree) (workingDir : Place) : List Path → Except Errno (Option Path)
  | [] => .ok none
  | path :: rest => do
    if ← t.isFile workingDir path then return some path else firstFile t workingDir rest

def allocatorFor (t : FileTree) (workingDir : Place) (s : Settings) : Lookup (Option Path) :=
  match firstFile t workingDir s.allocatorLibraries with
  | .ok path => pure path
  | .error e => throw (.system e)

def runsTests (inv : Invocation) (sources : List Source) : Bool :=
  inv.requestsRun && !sources.any Source.skipsRun

def checkProgramFor (t : FileTree) (workingDir : Place) (s : Settings) : Lookup Path := do
  Lookup.require s.checkCompilers (← Lookup.preferred t workingDir s.checkCompilers)

/-- With a sanitizer switch a compiler that honours it goes first. -/
def runProgramFor (t : FileTree) (workingDir : Place) (s : Settings) (inv : Invocation) :
    Lookup Path := do
  let sanitizing ←
    if inv.sanitizerSwitches.isEmpty then pure none
    else Lookup.preferred t workingDir s.sanitizerCompilers
  match sanitizing with
  | some path => return path
  | none => Lookup.require s.runCompilers (← Lookup.preferred t workingDir s.runCompilers)

def lintProgramFor (t : FileTree) (workingDir : Place) (s : Settings) (inv : Invocation) :
    Lookup (Option Path) :=
  match s.linter with
  | some linter =>
    if linter = "" ∨ inv.sourcePaths = [] then pure none
    else Lookup.resolve t workingDir linter
  | none => pure none

def demanglerFor (t : FileTree) (workingDir : Place) (s : Settings) : Lookup (Option Path) :=
  if s.useDemangler then Lookup.resolve t workingDir s.demangler else pure none

/-- Whether a program goes by the name of a compiler that honours sanitizer switches. -/
def honoursSanitizer (s : Settings) (program : Option Path) : Bool :=
  program.any fun path => s.sanitizerCompilers.contains path.name

def refuseRecursion (inv : Invocation) (env : Environment) (marker : String) : Lookup Unit :=
  match Recursion.reason? inv env marker with
  | some reason => throw (.harness (.selfRecursion reason))
  | none => pure ()

/-- The plan for an invocation of classified sources. -/
def make (t : FileTree) (workingDir : Place) (s : Settings) (env : Environment)
    (inv : Invocation) (sources : List Source) : Lookup Plan := do
  refuseRecursion inv env s.recursionMarker
  let checkProgram ← checkProgramFor t workingDir s
  let run := runsTests inv sources
  let runProgram ← if run then some <$> runProgramFor t workingDir s inv else pure none
  let lintProgram ← lintProgramFor t workingDir s inv
  let lint := lintProgram.isSome
  let allocator ← allocatorFor t workingDir s
  let demangler ← demanglerFor t workingDir s
  return {
    check := true
    run
    lint
    redirection := if run || lint then .capture else .inherit
    checkProgram := some checkProgram
    runProgram
    lintProgram
    checkSanitized := honoursSanitizer s (some checkProgram)
    runSanitized := honoursSanitizer s runProgram
    allocator
    demangler
    coverage := inv.requestsCoverage
    sources
  }

/-- The sources of an invocation, classified from a directory. -/
def classifyAll (t : FileTree) (workingDir : Place) (dir : Path) :
    List String → Lookup (List Source)
  | [] => pure []
  | arg :: rest => do
    match Source.classify? t workingDir dir arg with
    | some source => return source :: (← classifyAll t workingDir dir rest)
    | none => throw .embeddedNul

/-- The plan for an invocation in a directory. -/
def ofInvocation (t : FileTree) (workingDir : Place) (s : Settings) (env : Environment)
    (dir : Path) (inv : Invocation) : Lookup Plan := do
  make t workingDir s env inv (← classifyAll t workingDir dir inv.sourcePaths)

end Plan
end TriplePass
