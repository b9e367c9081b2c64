import TriplePass.Text.Search

/-! # Paths

A path starts at the working directory or at the root and lists the names on the way. Repeated
slashes, single dots and a slash at the end do not count; double dots stay, because what they
lead back from may be a link. Exactly two slashes in front are kept apart from one.
-/
namespace TriplePass

inductive Anchor where
  | relative
  | root
  | doubleRoot
  deriving DecidableEq, Repr

structure Path where
  anchor : Anchor := .relative
  names : List String := []
  deriving DecidableEq, Repr

namespace Path

def anchorOf : List Char → Anchor
  | '/' :: '/' :: '/' :: _ => .root
  | '/' :: '/' :: _ => .doubleRoot
  | '/' :: _ => .root
  | _ => .relative

/-- A field between two slashes that names something. -/
def isName (field : String) : Bool :=
  field != "" && field != "."

def ofString (s : String) : Path :=
  ⟨anchorOf s.toList, (Text.fields "/" s).filter isName⟩

def anchorText : Anchor → String
  | .relative => ""
  | .root => "/"
  | .doubleRoot => "//"

def toString (p : Path) : String :=
  if p.anchor = .relative ∧ p.names = [] then "."
  else anchorText p.anchor ++ "/".intercalate p.names

def isAbsolute (p : Path) : Bool :=
  p.anchor != .relative

/-- `q` as seen from `p`; an absolute path is the same from everywhere. -/
def join (p q : Path) : Path :=
  if q.isAbsolute then q else ⟨p.anchor, p.names ++ q.names⟩

def child (p : Path) (name : String) : Path :=
  ⟨p.anchor, p.names ++ [name]⟩

def name (p : Path) : String :=
  p.names.getLast?.getD ""

/-- The last point that is neither first nor last in a name, as the part in front of it. -/
def beforeLastPoint (name : List Char) : Option (List Char) :=
  let back := name.reverse
  let extension := back.takeWhile (· != '.')
  let front := (back.dropWhile (· != '.')).drop 1
  if extension.isEmpty || front.isEmpty then none else some front.reverse

/-- The name without its extension. -/
def stem (p : Path) : String :=
  ((beforeLastPoint p.name.toList).map String.ofList).getD p.name

/-- No file has a name with a NUL in it. -/
def hasNul (p : Path) : Bool :=
  p.names.any (·.toList.contains '\x00')

end Path
end TriplePass
