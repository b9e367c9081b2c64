import TriplePass.Diagnostic

/-! # Passes and their outcomes

The harness runs up to three passes over the sources: a check, a run of the unit tests, and a
lint. A finished pass has an exit status, negative for a signal, and the text of its two streams.
-/
namespace TriplePass

inductive Pass where
  | check
  | run
  | lint
  deriving DecidableEq, Repr

namespace Pass

def name : Pass → String
  | .check => "check"
  | .run => "run"
  | .lint => "lint"

def all : List Pass :=
  [.check, .run, .lint]

/-- Finished passes are waited for and reported in this order. -/
def waitOrder : List Pass :=
  [.check, .lint, .run]

end Pass

inductive Stream where
  | stdout
  | stderr
  deriving DecidableEq, Repr

structure Outcome where
  pass : Pass
  status : Int
  stdout : String := ""
  stderr : String := ""
  diagnostics : List Diagnostic := []
  deriving DecidableEq, Repr

namespace Outcome

def ok (o : Outcome) : Bool :=
  o.status == 0

def text (o : Outcome) : Stream → String
  | .stdout => o.stdout
  | .stderr => o.stderr

end Outcome
end TriplePass
