import TriplePass.CommandLine
import TriplePass.Program

/-! # The program

Reads the files below the working directory and the environment, runs the harness on them, and
writes back what has changed. The tools are the scripts among these files: a file counts as
executable if it names an interpreter. All of the files are taken to be the user's own, so that
none of them is refused to be read or removed, and both streams to be written in UTF-8.
-/
namespace TriplePass.Main

def maxDepth : Nat := 64

def fileOf (content : ByteArray) : Entry :=
  let bytes := content.toList
  .file ((Script.interpreter? bytes).isSome) bytes

/-- The entries below a directory, with their places. -/
def entriesBelow : (depth : Nat) → Place → List IO.FS.DirEntry → IO (List (Place × Entry))
  | _, _, [] => return []
  | 0, _, _ => return []
  | depth + 1, dir, e :: rest => do
    let place := dir ++ [e.fileName]
    let here ←
      if ← e.path.isDir then
        let inner ← entriesBelow depth place (← e.path.readDir).toList
        pure ((place, Entry.directory) :: inner)
      else if ← e.path.pathExists then pure [(place, fileOf (← IO.FS.readBinFile e.path))]
      else pure []
    return here ++ (← entriesBelow (depth + 1) dir rest)

/-- A variable as the system lists it. -/
def variableOf (s : String) : Option (String × String) :=
  let name := s.toList.takeWhile (· != '=')
  if name.isEmpty then none
  else some (String.ofList name, String.ofList (s.toList.drop (name.length + 1)))

def readEnvironment : IO Environment := do
  let content ← IO.FS.readBinFile "/proc/self/environ"
  let text := String.ofList (Utf8.decode content.toList)
  return (Text.fields "\x00" text).filterMap variableOf

def readTree (dir : Path) : IO FileTree := do
  let entries := (← (← IO.currentDir).readDir).toList
  let below ← entriesBelow maxDepth dir.names entries
  let start := ({} : FileTree).install dir.names .directory
  return below.foldl (fun t e => t.put e.1 e.2) start

def pathOf (place : Place) : String :=
  (⟨.root, place⟩ : Path).toString

/-- Makes the files of the system those of the tree. -/
def writeChanges (before after : FileTree) : IO Unit := do
  for (place, entry) in after.entries do
    match entry with
    | .file _ content =>
      if before.entryAt place != some entry then
        IO.FS.writeBinFile (pathOf place) content.toByteArray
    | _ => pure ()
  for (place, _) in before.entries do
    if (after.entryAt place).isNone then IO.FS.removeFile (pathOf place)

def failureText : CommandLine.Fatal → String
  | .load .notText => "settings are not encoded as text"
  | .load (.longInteger _) | .run (.longNumber _) => "a number has too many digits"
  | .load (.system e) | .run (.system e) => e.message
  | .load (.settings e) => e.message
  | .run (.harness e) => e.message
  | .run .embeddedNul => "a text for the system holds a NUL"
  | .run .illegalVariable => "illegal name of a variable"
  | .run .unwritable => "the standard output lacks a character"
  | .run (.ineligible pass) => pass.ineligibleText

end TriplePass.Main

open TriplePass in
def main (arguments : List String) : IO UInt32 := do
  let dir := Path.ofString (← IO.currentDir).toString
  let env ← Main.readEnvironment
  let before ← Main.readTree dir
  let exit := CommandLine.run (Program.host dir.names) dir.names dir env before arguments
  Main.writeChanges before exit.session.tree
  (← IO.getStdout).write (exit.session.written .stdout).toByteArray
  (← IO.getStderr).write (exit.session.written .stderr).toByteArray
  match exit.code with
  | .ok code => return UInt32.ofNat (CommandLine.processStatus code)
  | .error e =>
    IO.eprintln (Main.failureText e)
    return 1
