import TriplePass.Harness
import TriplePass.Settings.Layer

/-! # The command line

Every argument belongs to the compiler; the harness has no options of its own. Invalid settings
and harness errors are reported on the console and end the harness with their status; any other
failure is passed on.
-/
namespace TriplePass.CommandLine

def endOfOptions : String := "--"

/-- The arguments behind a mark that ends all options. -/
def passthrough (arguments : List String) : List String :=
  endOfOptions :: arguments

def settingsErrorCode : Int := 2

inductive Fatal where
  | load (e : LoadError)
  | run (e : Failure)
  deriving DecidableEq, Repr

/-- What the system keeps of the code that a program ends with. -/
def processStatus (code : Int) : Nat :=
  (code % 256).toNat

structure Exit where
  code : Except Fatal Int
  session : Session

def harness (host : Host) (workingDir : Place) (dir : Path) (env : Environment) (s : Settings) :
    Harness :=
  { settings := s, console := Console.ofSettings s, environment := env, host, workingDir, dir }

/-- Runs the harness in a directory with settings that are already there. -/
def runWith (h : Harness) (t : FileTree) (arguments : List String) : Exit :=
  match h.run arguments (h.start t) with
  | .ok result session => ⟨.ok result.status, session⟩
  | .error (.harness e) session =>
    let text := h.console.fail (Harness.programName ++ ": " ++ e.message)
    ⟨.ok e.exitCode, { session with events := session.events ++ [.logged text] }⟩
  | .error e session => ⟨.error (.run e), session⟩

/-- Runs the harness as the command line does. -/
def run (host : Host) (workingDir : Place) (dir : Path) (env : Environment) (t : FileTree)
    (arguments : List String) : Exit :=
  match Settings.load t workingDir dir env with
  | .ok s => runWith (harness host workingDir dir env s) t arguments
  | .error (.settings e) =>
    ⟨.ok settingsErrorCode,
      { tree := t, events := [.logged (Console.fail {} e.message)] }⟩
  | .error e => ⟨.error (.load e), { tree := t }⟩

end TriplePass.CommandLine
