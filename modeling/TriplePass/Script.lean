import TriplePass.Resolver
import TriplePass.Shell.Syntax
import TriplePass.Text.Blank

/-! # Scripts

A script is a file that may be executed and starts with the line that names its interpreter, which
has to be the shell in the end. A command with a slash in it is taken as it stands; any other is
tried in every directory of a search path. Of several refusals the first counts that says more than
that nothing is there.
-/
namespace TriplePass.Script

/-- Where the shell is. -/
def shells : List Place :=
  [["bin", "sh"], ["bin", "dash"], ["usr", "bin", "sh"], ["usr", "bin", "dash"]]

/-- The directories and programs that are there in any case. -/
def system : FileTree :=
  let t := ["dev", "etc", "home", "root", "tmp", "var"].foldl
    (fun t name => t.put [name] .directory) {}
  shells.foldl (fun t place => t.install place (.file true [])) t

/-- How much of a file is searched for the interpreter. -/
def headerBytes : Nat := 256

def isGap (c : Char) : Bool :=
  c == ' ' || c == '\t'

def isEnd (c : Char) : Bool :=
  isGap c || c == '\x00'

/-- The start of a file, filled up with NUL. -/
def header (content : Bytes) : Shell.Octets :=
  let start := Shell.Octets.ofBytes (content.take headerBytes)
  start ++ List.replicate (headerBytes - start.length) '\x00'

/-- The first line behind its mark. Without an end of line in the header, the interpreter at least
must be complete there. -/
def firstLine? (rest : Shell.Octets) : Option Shell.Octets :=
  if rest.contains '\n' then some (rest.takeWhile (· != '\n'))
  else if (rest.dropWhile isGap).any isEnd then some rest.dropLast
  else none

/-- The interpreter that the first line names, and its one argument. -/
def interpreter? (content : Bytes) : Option (String × Option String) :=
  match header content with
  | '#' :: '!' :: rest =>
    (firstLine? rest).bind fun line =>
      let line := Text.stripWhere isGap line
      let path := line.takeWhile (!isEnd ·)
      let argument := ((line.drop path.length).dropWhile isGap).takeWhile (· != '\x00')
      if line.isEmpty then none
      else
        some (Shell.Octets.toText path,
          if argument.isEmpty then none else some (Shell.Octets.toText argument))
  | _ => none

/-- How many interpreters may be scripts themselves. -/
def maxInterpreters : Nat := 4

/-- Whether a path names the shell by its place. -/
def isShell (path : String) : Bool :=
  Text.startsWith path "/" && shells.contains (Path.ofString path).names

/-- What is to be executed at a path: the content of a file, or nothing for the shell itself. -/
def openProgram (t : FileTree) (dir : Place) (path : String) : Except Errno (Option Bytes) := do
  if isShell path then return none
  else
    let place ← t.locateText dir path
    if shells.contains place then return none
    else
      match t.entryAt place with
      | some (.file true content) => return some content
      | some _ => throw .denied
      | none => throw .absent

/-- The words with which the shell is started in order to execute a path, in place of the name of
the command. -/
def loadWith (t : FileTree) (dir : Place) :
    (depth : Nat) → (path name : String) → Except Errno (List String)
  | depth, path, name => do
    match ← openProgram t dir path with
    | none => return [name]
    | some content =>
      match interpreter? content with
      | none => throw .notExecutableFormat
      | some (interpreter, argument) =>
        match depth with
        | 0 =>
          let _ ← openProgram t dir interpreter
          throw .tooManyLinks
        | depth + 1 =>
          let words ← loadWith t dir depth interpreter interpreter
          return words ++ argument.toList ++ [path]

def load (t : FileTree) (dir : Place) (path name : String) : Except Errno (List String) :=
  loadWith t dir (maxInterpreters + 1) path name

def defaultSearchPath : String := "/bin:/usr/bin"

/-- The paths at which a command is tried. -/
def candidates (env : Environment) (name : String) : List String :=
  if Resolver.hasSlash name then [name]
  else
    let searchPath := (Dictionary.get? env Resolver.searchVariable).getD defaultSearchPath
    (Text.fields Resolver.listSeparator searchPath).map (Resolver.below · name)

/-- The refusals that say no more than that there is no such file. -/
def isMissing (e : Errno) : Bool :=
  e == .absent || e == .notDirectory

/-- Tries the paths one after the other; `known` is the refusal that would be reported so far. -/
def loadFirst (t : FileTree) (dir : Place) (name : String) :
    (known : Errno) → List String → Except Errno (List String)
  | known, [] => .error known
  | known, path :: rest =>
    match load t dir path name with
    | .ok words => .ok words
    | .error e => loadFirst t dir name (if isMissing known then e else known) rest

/-- The words with which the shell is started for a command. -/
def find (t : FileTree) (dir : Place) (env : Environment) : List String → Except Errno (List String)
  | [] => .error .absent
  | name :: arguments =>
    (· ++ arguments) <$> loadFirst t dir name .absent (candidates env name)

end TriplePass.Script
