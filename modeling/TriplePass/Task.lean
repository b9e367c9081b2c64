import TriplePass.Plan

/-! # Tasks

What each pass executes: its arguments, the variables it sets on top of the parent's environment,
and its directory. The check never runs anything and the run does not repeat deprecations; the
linter sees only import directories and sources. Every child carries the recursion marker, and a
preload list that is already there is extended.
-/
namespace TriplePass

namespace Arguments

def keepSanitizer (keep : Bool) (args : List String) : List String :=
  if keep then args else args.filter (!isSanitizer ·)

/-- The arguments with a switch in front, unless it is among them. -/
def withSwitch (s : String) (args : List String) : List String :=
  if args.contains s then args else s :: args

def requestsExecution (arg : String) : Bool :=
  arg == runSwitch || arg == mainSwitch

def check (sanitized : Bool) (args : List String) : List String :=
  withSwitch compileOnlySwitch (keepSanitizer sanitized (args.filter (!requestsExecution ·)))

def run (sanitized : Bool) (args : List String) : List String :=
  withSwitch allowDeprecatedSwitch (keepSanitizer sanitized args)

def lint (template : List String) (inv : Invocation) : List String :=
  template ++ inv.importDirs.map (importSwitch ++ ·) ++ inv.sourcePaths

end Arguments

structure Task where
  pass : Pass
  command : List String
  bindings : Environment
  dir : Path
  redirection : Redirection
  deriving DecidableEq, Repr

namespace Task

def render (t : Task) : String :=
  " ".intercalate t.command

def programText : Option Path → String
  | some path => path.toString
  | none => "None"

def extendPreload (existing library : String) : String :=
  if existing = "" then library else existing ++ ":" ++ library

/-- The variables that a pass sets; the linter gets no allocator. -/
def bindingsFor (pass : Pass) (plan : Plan) (s : Settings) (parent : Environment) :
    Environment :=
  let marked := s.extraEnvironment.set s.recursionMarker "1"
  match pass, plan.allocator with
  | .lint, _ => marked
  | _, none => marked
  | _, some library =>
    let existing := (Dictionary.get? parent s.preloadVariable).getD ""
    marked.set s.preloadVariable (extendPreload existing library.toString)

/-- The demangler's command in front of a compiler's. -/
def front (plan : Plan) : List String :=
  (plan.demangler.map Path.toString).toList

def commandFor (pass : Pass) (inv : Invocation) (plan : Plan) (s : Settings) : List String :=
  match pass with
  | .check =>
    front plan ++ programText plan.checkProgram ::
      Arguments.check plan.checkSanitized inv.compilerArguments
  | .run =>
    front plan ++ programText plan.runProgram ::
      (Arguments.run plan.runSanitized inv.compilerArguments ++ inv.programArguments)
  | .lint => programText plan.lintProgram :: Arguments.lint s.lintArguments inv

/-- The task of a pass that the plan lets run. -/
def build (pass : Pass) (inv : Invocation) (plan : Plan) (s : Settings) (dir : Path)
    (parent : Environment) : Except Failure Task :=
  if plan.isEligible pass then
    .ok {
      pass
      command := commandFor pass inv plan s
      bindings := bindingsFor pass plan s parent
      dir
      redirection := plan.redirection
    }
  else .error (.ineligible pass)

end Task
end TriplePass
