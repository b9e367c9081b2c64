import TriplePass.Dictionary
import TriplePass.FileTree

/-! # Finding programs

A program is looked for in the directories of a search path, in order; a name with a slash in it
is taken as it stands. The first answer for a name, found or not, is kept for good.
-/
namespace TriplePass

structure Resolver where
  directories : List Path := []
  known : Dictionary (Option Path) := []
  deriving DecidableEq, Repr

namespace Resolver

def listSeparator : String := ":"

def ofFields (fields : List String) : Resolver :=
  { directories := (fields.filter (· != "")).map Path.ofString }

/-- A resolver for the directories between the separators of a search path, empty ones left
out; the separator must not be empty. -/
def ofSearchPath? (searchPath separator : String) : Option Resolver :=
  if separator = "" then none else some (ofFields (Text.fields separator searchPath))

def ofSearchPath (searchPath : String) : Resolver :=
  ofFields (Text.fields listSeparator searchPath)

def searchVariable : String := "PATH"

def ofEnvironment (env : Environment) : Resolver :=
  ofSearchPath ((Dictionary.get? env searchVariable).getD "")

/-- A name below a directory, as it is handed to the system. -/
def below (dir name : String) : String :=
  if dir = "" then name
  else if Text.endsWith dir "/" then dir ++ name
  else dir ++ "/" ++ name

/-- Whether a written path leads to a regular file that may be executed. -/
def isProgram (t : FileTree) (workingDir : Place) (s : String) : Bool :=
  !s.toList.contains '\x00' &&
  match t.locateText workingDir s with
  | .ok place =>
    match t.entryAt place with
    | some (.file executable _) => executable
    | _ => false
  | .error _ => false

def hasSlash (name : String) : Bool :=
  name.toList.contains '/'

/-- The directories as one list with separators. -/
def searchText (dirs : List Path) : String :=
  listSeparator.intercalate (dirs.map Path.toString)

/-- The paths that are tried for a name: the name itself if it has a slash, and otherwise the name
below each directory. Without any directory nothing is tried. -/
def candidates (dirs : List Path) (name : String) : List String :=
  if searchText dirs = "" then []
  else if hasSlash name then [name]
  else (Text.fields listSeparator (searchText dirs)).map (below · name)

/-- A fresh answer: the first of the paths tried that is a program. -/
def lookup (t : FileTree) (workingDir : Place) (dirs : List Path) (name : String) :
    Option Path :=
  ((candidates dirs name).find? (isProgram t workingDir)).map Path.ofString

/-- The answer for a name, together with the resolver that knows it. -/
def resolve (t : FileTree) (workingDir : Place) (r : Resolver) (name : String) :
    Option Path × Resolver :=
  match Dictionary.get? r.known name with
  | some answer => (answer, r)
  | none =>
    let answer := lookup t workingDir r.directories name
    (answer, { r with known := r.known.set name answer })

/-- The answer for the first of the names that has one. -/
def preferred (t : FileTree) (workingDir : Place) : Resolver → List String → Option Path × Resolver
  | r, [] => (none, r)
  | r, name :: rest =>
    match r.resolve t workingDir name with
    | (some path, r) => (some path, r)
    | (none, r) => preferred t workingDir r rest

end Resolver
end TriplePass
