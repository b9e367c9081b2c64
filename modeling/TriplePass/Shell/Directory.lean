import TriplePass.Shell.Declare

/-! # The working directory

The shell knows its working directory by the name under which it was entered; links in that name
stay, and two points lead back to where the name came from. The physical name has no links.
-/
namespace TriplePass.Shell

/-- The name of a place. -/
def physicalName (place : Place) : Octets :=
  '/' :: ['/'].intercalate (place.map Octets.ofText)

/-- The components of a name, with points resolved, last one first; `found` is what they start
from. -/
def resolve : (found : List Octets) → List Octets → List Octets
  | found, [] => found
  | found, name :: rest =>
    if name = [] || name = ['.'] then resolve found rest
    else if name = ['.', '.'] then resolve found.tail rest
    else resolve (name :: found) rest

def slashFields (s : Octets) : List Octets :=
  match s with
  | [] => [[]]
  | c :: cs =>
    match slashFields cs with
    | [] => [[c]]
    | first :: more => if c = '/' then [] :: first :: more else (c :: first) :: more

/-- Two slashes at the start, and no more, are kept. -/
def startsDoubly (name : Octets) : Bool :=
  "//".toList.isPrefixOf name && !"///".toList.isPrefixOf name

/-- The name of a directory, seen from the current one. -/
def logicalName (current name : Octets) : Octets :=
  let isAbsolute := name.head? = some '/'
  let before := if isAbsolute then [] else (slashFields current).reverse.filter (!·.isEmpty)
  let doubled := startsDoubly (if isAbsolute then name else current)
  let names := (resolve before (slashFields name)).reverse
  (if doubled then ['/', '/'] else ['/']) ++ ['/'].intercalate names

/-- Sets a variable for programs that are started from here. -/
def assignExported (name : String) (value : Octets) : Action Unit := do
  assign name.toList value
  modify fun s => s.putVariable name.toList
    { (s.binding? name.toList).getD {} with exported := true }

def enter (physical : Bool) (name : Octets) : Action Bool := do
  let s ← get
  let target := if physical then name else logicalName s.path name
  match s.tree.locateText s.workingDir (Octets.toText target) with
  | .error _ => return false
  | .ok place =>
    if s.tree.entryAt place ≠ some .directory || s.tree.denies place .search then return false
    else
      let path := if physical then physicalName place else target
      set { s with workingDir := place, path }
      assignExported "OLDPWD" s.path
      assignExported "PWD" path
      return true

/-- Whether the search for a directory is passed over. -/
def isRooted (name : Octets) : Bool :=
  match slashFields name with
  | first :: _ => first = [] || first = ['.'] || first = ['.', '.']
  | [] => false

def isDirectory (s : State) (name : Octets) : Bool :=
  match s.tree.locateText s.workingDir (Octets.toText name) with
  | .ok place => s.tree.entryAt place = some .directory
  | .error _ => false

/-- The directories in a search path. -/
def searchPlaces (path : Octets) : List Octets :=
  match path with
  | [] => [[]]
  | c :: cs =>
    match searchPlaces cs with
    | [] => [[c]]
    | first :: more => if c = ':' then [] :: first :: more else (c :: first) :: more

def below (dir name : Octets) : Octets :=
  if dir.isEmpty then name else dir ++ '/' :: name

def changeDirectory (words : List Octets) : Action Unit := do
  let (found, words) ← flags "LP" words
  let physical := found.getLast?.any (·.letter == 'P')
  let s ← get
  let back := words.head? = some ['-']
  let name :=
    match words with
    | [] => (s.valueOf "HOME".toList).getD []
    | word :: _ => if back then (s.valueOf "OLDPWD".toList).getD [] else word
  let searched :=
    if isRooted name && !name.isEmpty then none
    else
      let name := if name.isEmpty then ['.'] else name
      (s.valueOf "CDPATH".toList).bind fun path =>
        ((searchPlaces path).find? fun dir => isDirectory s (below dir name)).map fun dir =>
          (below dir name, !dir.isEmpty)
  let (target, shown) := searched.getD (if name.isEmpty then ['.'] else name, false)
  if ← enter physical target then
    if shown || back then sayLine (← get).path
    setStatus 0
  else fail ("can't cd to ".toList ++ name)

def printDirectory (words : List Octets) : Action Unit := do
  let (found, _) ← flags "LP" words
  let s ← get
  sayLine (if found.getLast?.any (·.letter == 'P') then physicalName s.workingDir else s.path)
  setStatus 0

end TriplePass.Shell
