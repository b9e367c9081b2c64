import TriplePass.Path
import TriplePass.Text.Utf8

/-! # The file tree

Directories, regular files and symbolic links, each at its place: the names from the root down.
Finding a file walks a path name by name, following at most forty links. A name that is too long
and a directory that must not be searched are errors of their own kind, which the callers that
merely ask whether a file exists pass on.
-/
namespace TriplePass

inductive Errno where
  | absent
  | denied
  | notDirectory
  | isDirectory
  | nameTooLong
  | tooManyLinks
  | notExecutableFormat
  deriving DecidableEq, Repr

namespace Errno

def code : Errno → Nat
  | .absent => 2
  | .notExecutableFormat => 8
  | .denied => 13
  | .notDirectory => 20
  | .isDirectory => 21
  | .nameTooLong => 36
  | .tooManyLinks => 40

def message : Errno → String
  | .absent => "No such file or directory"
  | .notExecutableFormat => "Exec format error"
  | .denied => "Permission denied"
  | .notDirectory => "Not a directory"
  | .isDirectory => "Is a directory"
  | .nameTooLong => "File name too long"
  | .tooManyLinks => "Too many levels of symbolic links"

/-- The errors that say no more than that nothing is there. -/
def meansAbsent : Errno → Bool
  | .absent | .notDirectory | .tooManyLinks => true
  | _ => false

end Errno

inductive Entry where
  | directory
  | file (executable : Bool) (content : Bytes)
  | link (target : String)
  deriving DecidableEq, Repr

/-- The names from the root down. -/
abbrev Place := List String

def Entry.isFile : Entry → Bool
  | .file .. => true
  | _ => false

/-- What the system may keep from the user at a place: to go through a directory, to read a file or
the names in a directory, to change either of them, or to remove the entry that is there, whatever
the directory around it allows. -/
inductive Permission where
  | search
  | read
  | write
  | remove
  deriving DecidableEq, Repr

structure FileTree where
  entries : List (Place × Entry) := []
  denials : List (Place × Permission) := []
  deriving DecidableEq, Repr

namespace FileTree

def denies (t : FileTree) (place : Place) (p : Permission) : Bool :=
  t.denials.contains (place, p)

/-- The root is a directory in every tree. -/
def entryAt (t : FileTree) (place : Place) : Option Entry :=
  if place = [] then some .directory else t.entries.lookup place

def remove (t : FileTree) (place : Place) : FileTree :=
  { t with entries := t.entries.filter (·.1 != place) }

/-- A new entry comes with all permissions; one that is replaced keeps those it had. -/
def put (t : FileTree) (place : Place) (e : Entry) : FileTree where
  entries := (place, e) :: (t.remove place).entries
  denials := if (t.entryAt place).isSome then t.denials else t.denials.filter (·.1 != place)

/-- The directories on the way to a place, the root apart. -/
def ancestors (place : Place) : List Place :=
  (List.range place.length).tail.map place.take

/-- Puts an entry and the directories it lies in. -/
def install (t : FileTree) (place : Place) (e : Entry) : FileTree :=
  ((ancestors place).foldl
    (fun t d => if (t.entryAt d).isSome then t else t.put d .directory) t).put place e

/-- The names in a directory. -/
def children (t : FileTree) (dir : Place) : List String :=
  t.entries.filterMap fun e => if e.1.dropLast = dir then e.1.getLast? else none

def maxNameBytes : Nat := 255
def maxPathBytes : Nat := 4096
def maxLinks : Nat := 40

/-- The steps of a written path. The empty one for a slash at the end asks for a directory, which
need not be searched. -/
def steps (s : String) : List String :=
  let names := (Text.fields "/" s).filter (· != "")
  if Text.endsWith s "/" then names ++ [""] else names

/-- Walks the steps from a directory; `follow` goes on behind a link. -/
def walkWith (t : FileTree) (follow : Place → List String → Except Errno Place) :
    Place → List String → Except Errno Place
  | dir, [] => .ok dir
  | dir, name :: rest =>
    if name = "" then walkWith t follow dir rest
    else if t.denies dir .search then .error .denied
    else if name = "." then walkWith t follow dir rest
    else if name = ".." then walkWith t follow dir.dropLast rest
    else if maxNameBytes < name.utf8ByteSize then .error .nameTooLong
    else
      match t.entryAt (dir ++ [name]) with
      | none => .error .absent
      | some .directory => walkWith t follow (dir ++ [name]) rest
      | some (.file ..) => if rest.isEmpty then .ok (dir ++ [name]) else .error .notDirectory
      | some (.link target) =>
        follow (if Text.startsWith target "/" then [] else dir) (steps target ++ rest)

def walk (t : FileTree) : (links : Nat) → Place → List String → Except Errno Place
  | 0 => t.walkWith fun _ _ => .error .tooManyLinks
  | links + 1 => t.walkWith (t.walk links)

/-- The place that a written path leads to from the working directory, links followed. -/
def locateText (t : FileTree) (workingDir : Place) (s : String) : Except Errno Place :=
  if s = "" then .error .absent
  else if maxPathBytes ≤ s.utf8ByteSize then .error .nameTooLong
  else t.walk maxLinks (if Text.startsWith s "/" then [] else workingDir) (steps s)

def locate (t : FileTree) (workingDir : Place) (p : Path) : Except Errno Place :=
  t.locateText workingDir p.toString

def statusAt (t : FileTree) (place : Place) : Except Errno Entry :=
  match t.entryAt place with
  | some e => .ok e
  | none => .error .absent

/-- What a path leads to, links followed. -/
def status (t : FileTree) (workingDir : Place) (p : Path) : Except Errno Entry := do
  t.statusAt (← t.locate workingDir p)

/-- The entry that a written path names, without following a link at its end. -/
def entry? (t : FileTree) (workingDir : Place) (s : String) : Option Entry :=
  match t.locateText workingDir s, (steps s).getLast? with
  | .ok place, none => t.entryAt place
  | result, some name =>
    if name = "" || name = "." || name = ".." then result.toOption.bind t.entryAt
    else
      let base := if Text.startsWith s "/" then [] else workingDir
      match t.walk maxLinks base (steps s).dropLast with
      | .ok dir => if t.denies dir .search then none else t.entryAt (dir ++ [name])
      | .error _ => none
  | .error _, none => none

def asks (answer : Entry → Bool) : Except Errno Entry → Except Errno Bool
  | .ok e => .ok (answer e)
  | .error e => if e.meansAbsent then .ok false else .error e

/-- Whether the path leads to a regular file. -/
def isFile (t : FileTree) (workingDir : Place) (p : Path) : Except Errno Bool :=
  if p.hasNul then .ok false else asks Entry.isFile (t.status workingDir p)

/-- Whether the path leads to a directory. -/
def isDirectory (t : FileTree) (workingDir : Place) (p : Path) : Except Errno Bool :=
  if p.hasNul then .ok false else asks (· == .directory) (t.status workingDir p)

/-- Whether the path leads to a regular file without content; it need not be readable. -/
def isEmptyFile (t : FileTree) (workingDir : Place) (p : Path) : Bool :=
  match t.status workingDir p with
  | .ok (.file _ content) => content.isEmpty
  | _ => false

def readAt (t : FileTree) (place : Place) : Except Errno Bytes :=
  match t.entryAt place with
  | none => .error .absent
  | some e =>
    if t.denies place .read then .error .denied
    else
      match e with
      | .file _ content => .ok content
      | _ => .error .isDirectory

def read (t : FileTree) (workingDir : Place) (p : Path) : Except Errno Bytes := do
  t.readAt (← t.locate workingDir p)

/-- The names in the directory that the path leads to. -/
def list (t : FileTree) (workingDir : Place) (dir : Path) : Except Errno (List String) := do
  let place ← t.locate workingDir dir
  if t.denies place .read then .error .denied else .ok (t.children place)

/-- Whether the system keeps an entry of a directory from being removed. -/
def keepsAt (t : FileTree) (dir : Place) (name : String) : Bool :=
  t.denies dir .write || t.denies (dir ++ [name]) .remove

def unlinkAt (t : FileTree) (dir : Place) (name : String) : Except Errno FileTree :=
  if t.denies dir .search then .error .denied
  else
    match t.entryAt (dir ++ [name]) with
    | none => .error .absent
    | some .directory => .error .isDirectory
    | some _ =>
      if t.keepsAt dir name then .error .denied else .ok (t.remove (dir ++ [name]))

/-- Removes the entry of that name in the directory that the path leads to; a link is removed
itself, never what it leads to. -/
def unlink (t : FileTree) (workingDir : Place) (dir : Path) (name : String) :
    Except Errno FileTree := do
  t.unlinkAt (← t.locate workingDir dir) name

theorem entryAt_remove (t : FileTree) (place q : Place) :
    (t.remove place).entryAt q = if q = place ∧ q ≠ [] then none else t.entryAt q := by
  unfold entryAt remove
  by_cases hq : q = []
  · simp [hq]
  · simp only [hq, if_false, ne_eq, not_false_eq_true, and_true]
    induction t.entries with
    | nil => simp
    | cons e rest ih =>
      by_cases he : e.1 = place
      · rw [List.filter_cons_of_neg (by simp [he]), ih, List.lookup_cons]
        by_cases hp : q = place
        · simp [hp]
        · simp [hp, show (q == e.1) = false by simp [he, hp]]
      · rw [List.filter_cons_of_pos (by simp [he]), List.lookup_cons, List.lookup_cons, ih]
        by_cases hp : q = place
        · simp [hp, show (place == e.1) = false by simpa using fun h => he h.symm]
        · simp [hp]

end FileTree
end TriplePass
