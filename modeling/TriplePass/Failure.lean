import TriplePass.FileTree
import TriplePass.Outcome

/-! # Failures

A harness error is reported to the user and ends the harness with a status of its own. The other
causes are faults that nobody has foreseen: they leave the run as they are.
-/
namespace TriplePass

/-- Why the system refused something: a code with its text, or a text alone. -/
inductive SystemError where
  | coded (code : Int) (text : String)
  | plain (text : String)
  deriving DecidableEq, Repr

namespace SystemError

def ofErrno (e : Errno) : SystemError :=
  .coded e.code e.message

/-- The text of the error; a code without a text is shown itself. -/
def text : SystemError → String
  | .coded code s => if s = "" then "[Errno " ++ toString code ++ "] " else s
  | .plain s => s

def meansAbsent : SystemError → Bool
  | .coded code _ => code == Errno.absent.code
  | .plain _ => false

end SystemError

inductive HarnessError where
  | general (message : String) (exitCode : Int := 1)
  | selfRecursion (reason : String)
  | programNotFound (candidates : List String)
  | launch (command : List String) (cause : SystemError)
  deriving DecidableEq, Repr

namespace HarnessError

def candidateText (candidates : List String) : String :=
  let names := ", ".intercalate candidates
  if names = "" then "<none>" else names

def message : HarnessError → String
  | .general message _ => message
  | .selfRecursion reason => "refusing potentially self-recursive invocation: " ++ reason
  | .programNotFound candidates =>
    "no executable found on PATH among: " ++ candidateText candidates
  | .launch command cause =>
    "failed to launch '" ++ command.headD "" ++ "': " ++ cause.text

/-- A program that is not there ends the harness as a shell would report it. -/
def exitCode : HarnessError → Int
  | .general _ code => code
  | .selfRecursion _ => 2
  | .programNotFound _ => 127
  | .launch _ cause => if cause.meansAbsent then 127 else 126

end HarnessError

inductive Failure where
  | harness (e : HarnessError)
  | system (e : Errno)
  | embeddedNul
  | illegalVariable
  | unwritable
  | ineligible (pass : Pass)
  | longNumber (digits : Nat)
  deriving DecidableEq, Repr

/-- What is said of a pass that is built without being eligible. -/
def Pass.ineligibleText (pass : Pass) : String :=
  pass.name ++ " task is not eligible for this invocation"

end TriplePass
