import TriplePass.FileTree
import TriplePass.Shell.Pattern

/-! # File names for patterns

A field that is a pattern stands for the file names that fit it, in ascending order, or for itself
if there are none. A slash is matched by a slash alone, and a point at the start of a name only by
a point.
-/
namespace TriplePass.Shell

/-- The components of a pattern between its slashes. -/
def components : Marked → List Marked
  | [] => [[]]
  | m :: rest =>
    if m.1 = '/' then [] :: components rest
    else
      match components rest with
      | first :: more => (m :: first) :: more
      | [] => [[m]]

def existsAs (t : FileTree) (workingDir : Place) (path : Octets) : Bool :=
  (t.entry? workingDir (Octets.toText path)).isSome

/-- The names that a directory holds, with those of itself and of the one around it. -/
def namesIn (t : FileTree) (workingDir : Place) (dir : Octets) : List Octets :=
  match t.locateText workingDir (if dir.isEmpty then "." else Octets.toText dir) with
  | .ok place =>
    if t.entryAt place = some .directory && !t.denies place .read then
      ['.'] :: ['.', '.'] :: (t.children place).map Octets.ofText
    else []
  | .error _ => []

def hides (pattern : Marked) (name : Octets) : Bool :=
  name.head? = some '.' && pattern.head?.map Prod.fst ≠ some '.'

/-- The names that fit the components, behind what has been found so far. -/
def matching (t : FileTree) (workingDir : Place) : (found : Octets) → List Marked → List Octets
  | found, [] => [found]
  | found, [c] =>
    if c.isPattern then
      ((namesIn t workingDir found).filter fun name => !hides c name && fits c.atoms name).map
        (found ++ ·)
    else
      let path := found ++ (Pattern.resolved c).text
      if existsAs t workingDir path then [path] else []
  | found, c :: rest =>
    if c.isPattern then
      ((namesIn t workingDir found).filter fun name => !hides c name && fits c.atoms name).flatMap
        fun name => matching t workingDir (found ++ name ++ ['/']) rest
    else matching t workingDir (found ++ (Pattern.resolved c).text ++ ['/']) rest

/-- The texts that a field stands for. -/
def fileNames (t : FileTree) (workingDir : Place) (field : Marked) : List Octets :=
  if field.isPattern then
    match matching t workingDir [] (components field) with
    | [] => [field.text]
    | names => names.mergeSort Octets.isUpTo
  else [field.text]

end TriplePass.Shell
