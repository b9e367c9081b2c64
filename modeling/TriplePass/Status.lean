/-! # The exit status of the harness

Lint is advisory: a linter that found something or crashed does not fail the build. Of the three
statuses the first that is not zero counts, check before run before lint; a pass that did not run
counts as a success.
-/
namespace TriplePass.Status

/-- A linter ended by a segmentation fault, as a signal or as a shell reports it. -/
def isCrash (status : Int) : Bool :=
  status == -11 || status == 139

def lintFound : Int := 1

/-- The status that a lint counts with. -/
def ofLint : Option Int → Int
  | none => 0
  | some status => if isCrash status || status == lintFound then 0 else status

def firstNonZero (status : Option Int) (otherwise : Int) : Int :=
  match status with
  | some s => if s = 0 then otherwise else s
  | none => otherwise

def aggregate (check run lint : Option Int) : Int :=
  firstNonZero check (firstNonZero run (ofLint lint))

end TriplePass.Status
