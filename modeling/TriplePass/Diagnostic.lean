/-! # Diagnostics

What a tool or the harness has to say about a place in a source, written as
`file(line,column): Label: message`. Line and column may be missing; a column without a line is
not written.
-/
namespace TriplePass

inductive Severity where
  | error
  | warning
  | notice
  | info
  deriving DecidableEq, Repr

namespace Severity

def name : Severity → String
  | .error => "error"
  | .warning => "warning"
  | .notice => "notice"
  | .info => "info"

def label : Severity → String
  | .error => "Error"
  | .warning => "Warning"
  | .notice => "Notice"
  | .info => "Info"

def all : List Severity :=
  [.error, .warning, .notice, .info]

end Severity

structure Diagnostic where
  file : String
  line : Option Int := none
  column : Option Int := none
  severity : Severity
  message : String
  tool : String
  deriving DecidableEq, Repr

namespace Diagnostic

def position (line : Int) : Option Int → String
  | none => "(" ++ toString line ++ ")"
  | some column => "(" ++ toString line ++ "," ++ toString column ++ ")"

def render (d : Diagnostic) : String :=
  d.file ++ (d.line.map (position · d.column)).getD "" ++ ": " ++ d.severity.label ++ ": " ++
    d.message

end Diagnostic
end TriplePass
