import TriplePass.Coverage.Listing
import TriplePass.Diagnostic

/-! # Surveys

A survey reads the listing of every source that was run, reports the lines that never executed,
and consumes the listing. Then it removes the stale listings that earlier runs left in the
directory. A listing that the system does not let it remove stays where it is, and is not counted.
The files it removes are gone even if it fails later on.
-/
namespace TriplePass.Coverage

structure Report where
  diagnostics : List Diagnostic := []
  consumed : List Path := []
  removed : List Path := []
  lastSource : Option String := none
  deriving DecidableEq, Repr

/-- A computation on the file tree that the system may refuse. -/
abbrev Survey := EStateM Errno FileTree

namespace Survey

def asking (question : FileTree → Except Errno Bool) : Survey Bool := fun t =>
  match question t with
  | .ok answer => .ok answer t
  | .error e => .error e t

def isFile (workingDir : Place) (path : Path) : Survey Bool :=
  asking (·.isFile workingDir path)

/-- Removes a file, and says whether it is gone. -/
def remove (workingDir : Place) (dir : Path) (name : String) : Survey Bool := fun t =>
  match t.unlink workingDir dir name with
  | .ok u => .ok true u
  | .error .absent => .ok true t
  | .error _ => .ok false t

end Survey

def toolName : String := "coverage"

def skipNotice (s : Source) : Diagnostic where
  file := s.path
  severity := .info
  message :=
    "coverage analysis skipped: file " ++
      (if s.isEntryPoint then "defines main" else "has no unittest blocks")
  tool := toolName

def uncoveredWarning (source : String) (line : Nat) : Diagnostic where
  file := source
  line := some line
  severity := .warning
  message := "line not covered by tests"
  tool := toolName

/-- The lines that a listing reports; one that cannot be read reports none. -/
def uncoveredAt (t : FileTree) (workingDir : Place) (listing : Path) : List Nat :=
  match t.read workingDir listing with
  | .ok content => uncovered content
  | .error _ => []

/-- An empty listing is known by its size, the others have to be read. -/
def isStaleAt (t : FileTree) (workingDir : Place) (listing : Path) : Bool :=
  t.isEmptyFile workingDir listing ||
    match t.read workingDir listing with
    | .ok content => hasZeroLine content
    | .error _ => false

/-- Reports on the listing of one source, and consumes it if it can be removed. -/
def consume (workingDir : Place) (dir : Path) (source : String) (r : Report) : Survey Report := do
  let name := listingName source
  let listing := dir.child name
  if ← Survey.isFile workingDir listing then
    let lines := uncoveredAt (← get) workingDir listing
    let gone ← Survey.remove workingDir dir name
    return { r with
      diagnostics := r.diagnostics ++ lines.map (uncoveredWarning source)
      consumed := if gone then r.consumed ++ [listing] else r.consumed }
  else return r

def processOne (workingDir : Place) (dir : Path) (r : Report) (s : Source) : Survey Report :=
  if !Source.isArgument s.path then return r
  else
    let r := { r with lastSource := some s.path }
    if s.skipsRun then return { r with diagnostics := r.diagnostics ++ [skipNotice s] }
    else consume workingDir dir s.path r

/-- Reports on the sources in order. -/
def process (workingDir : Place) (dir : Path) (sources : List Source) : Survey Report :=
  sources.foldlM (processOne workingDir dir) {}

/-- Whether a listing of that name may be cleaned up: the internal one, the one of the last
source, and all whose name has a hyphen. -/
def isCandidate (lastSource : Option String) (name : String) : Bool :=
  name == internalListing || lastSource.any (listingName · == name) || name.toList.contains '-'

/-- Removes a listing that may go and is stale; says whether it did. -/
def cleanOne (workingDir : Place) (dir : Path) (lastSource : Option String) (name : String) :
    Survey Bool := do
  let listing := dir.child name
  if ← Survey.isFile workingDir listing then
    if isCandidate lastSource name && isStaleAt (← get) workingDir listing then
      Survey.remove workingDir dir name
    else return false
  else return false

def cleanEach (workingDir : Place) (dir : Path) (lastSource : Option String) :
    List String → Survey (List Path)
  | [] => return []
  | name :: rest => do
    let gone ← cleanOne workingDir dir lastSource name
    let more ← cleanEach workingDir dir lastSource rest
    return if gone then dir.child name :: more else more

/-- The names of listings in a directory, in ascending order; none if it cannot be read. -/
def listingNames (t : FileTree) (workingDir : Place) (dir : Path) : List String :=
  match t.list workingDir dir with
  | .ok names =>
    (names.filter (Text.endsWith · listingExtension)).mergeSort fun a b => decide (a ≤ b)
  | .error _ => []

/-- Removes the stale listings in a directory. -/
def cleanup (workingDir : Place) (dir : Path) (lastSource : Option String) :
    Survey (List Path) := do
  if ← Survey.asking (·.isDirectory workingDir dir) then
    cleanEach workingDir dir lastSource (listingNames (← get) workingDir dir)
  else return []

def run (workingDir : Place) (dir : Path) (sources : List Source) : Survey Report := do
  let r ← process workingDir dir sources
  return { r with removed := ← cleanup workingDir dir r.lastSource }

/-- A run that a failed assertion has cut short leaves listings that are not complete. -/
def assertionFailed : Int := 1

def shouldProcess (runEligible requested : Bool) (runStatus : Option Int) : Bool :=
  runEligible && requested && runStatus.any (· != assertionFailed)

end TriplePass.Coverage
