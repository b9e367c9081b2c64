import TriplePass.FileTree
import TriplePass.Settings.Reading
import TriplePass.Text.Blank
import TriplePass.Text.Quoted
import TriplePass.Toml.Document

/-! # Layers of settings

Settings come in layers, each on top of the one before: the defaults, a section of the project
file, a file of the harness's own, and flags in the environment. In the tables of the two files a
dash in a key stands for an underscore. A file that is not there contributes nothing.
-/
namespace TriplePass

/-- What is reported as an invalid configuration. -/
inductive SettingsError where
  | invalid (source : String) (faults : List Fault)
  | unparsable (path : Path)
  | badFlag (flag raw : String)
  deriving DecidableEq, Repr

/-- What is reported, up to the details: behind a file that could not be parsed the report goes on
with the parser's own words, and behind an invalid table with a list of its faults. -/
def SettingsError.message : SettingsError → String
  | .invalid source _ => "invalid configuration in " ++ source
  | .unparsable path => "could not parse " ++ path.toString
  | .badFlag flag raw => flag ++ " must be a boolean flag, got " ++ Text.quoted raw

/-- Why settings could not be loaded. The last three causes are not reported as an invalid
configuration: bytes that are no text, an integer with too many digits, and a refused system
call. -/
inductive LoadError where
  | settings (e : SettingsError)
  | notText
  | longInteger (digits : Nat)
  | system (e : Errno)
  deriving DecidableEq, Repr

inductive Layer where
  | document (path : Path) (label : String)
  | project (path : Path) (label : String)
  | flags (env : Environment)
  deriving Repr

namespace Layer

def underscored (key : String) : String :=
  String.ofList (key.toList.map fun c => if c = '-' then '_' else c)

def normalised (data : Table) : Table :=
  Dictionary.rename underscored data

/-- A file's own name, unless it was given another. -/
def labelFor (path : Path) (label : String) : String :=
  if label = "" then path.toString else label

def name : Layer → String
  | .document path label | .project path label => labelFor path label
  | .flags _ => "environment"

def describe : Layer → String
  | .document path label => "TOML configuration at " ++ labelFor path label
  | .project path label => "pyproject.toml (" ++ labelFor path label ++ ")"
  | .flags _ => "environment variables"

def system {α : Type} : Except Errno α → Except LoadError α
  | .ok a => .ok a
  | .error e => .error (.system e)

def parse (path : Path) (content : Bytes) : Except LoadError Table :=
  match Utf8.decode? content with
  | none => .error .notText
  | some text =>
    match Toml.read text with
    | .ok data => .ok (normalised data)
    | .error .malformed => .error (.settings (.unparsable path))
    | .error (.longInteger digits) => .error (.longInteger digits)

/-- The table in a file, empty if there is no such file. -/
def readDocument (t : FileTree) (workingDir : Place) (path : Path) : Except LoadError Table := do
  if ← system (t.isFile workingDir path) then
    parse path (← system (t.read workingDir path))
  else return []

/-- The entries under a key, if they are a table. -/
def tableAt (key : String) (data : Table) : Option Table :=
  match Dictionary.get? data key with
  | some (.table entries) => some entries
  | _ => none

def projectSection (data : Table) : Table :=
  match (tableAt "tool" data).bind (tableAt "xdmd") with
  | some entries => normalised entries
  | none => []

def flagPrefix : String := "XDMD_"

/-- Each flag with the field it sets, and whether it sets it the other way round. -/
def flagFields : List (String × Field × Bool) :=
  [("DEBUG", .debug, false), ("NO_COLOR", .useColor, true), ("NO_EMOJI", .useEmoji, true),
    ("NO_DEMANGLE", .useDemangler, true), ("EXIT_EARLY", .exitEarly, false)]

def truthyFlags : List String := ["1", "true", "yes", "on"]
def falsyFlags : List String := ["0", "false", "no", "off", ""]

def readFlagText (flag raw : String) : Except SettingsError Bool :=
  let word := lowered (String.ofList (Text.strip raw.toList))
  if truthyFlags.contains word then .ok true
  else if falsyFlags.contains word then .ok false
  else .error (.badFlag flag raw)

/-- The flag that a variable of the environment gives, if it is there at all. -/
def flag? (env : Environment) (suffix : String) : Except SettingsError (Option Bool) :=
  let flag := flagPrefix ++ suffix
  match Dictionary.get? env flag with
  | none => .ok none
  | some raw => some <$> readFlagText flag raw

def readFlags (env : Environment) : List (String × Field × Bool) → Except SettingsError Table
  | [] => do
    if (← flag? env "NO_LINT") = some true then return [(Field.linter.name, .null)]
    else return []
  | (suffix, f, inverted) :: rest => do
    let b ← flag? env suffix
    let more ← readFlags env rest
    return match b with
    | some b => (f.name, .boolean (b != inverted)) :: more
    | none => more

/-- The table of values that a layer contributes. -/
def load (t : FileTree) (workingDir : Place) : Layer → Except LoadError Table
  | .document path _ => readDocument t workingDir path
  | .project path _ => projectSection <$> readDocument t workingDir path
  | .flags env =>
    match readFlags env flagFields with
    | .ok data => .ok data
    | .error e => .error (.settings e)

end Layer

namespace Settings

def updateFrom (s : Settings) (source : String) (data : Table) : Except SettingsError Settings :=
  match s.update data with
  | .ok s => .ok s
  | .error faults => .error (.invalid source faults)

def addLayer (t : FileTree) (workingDir : Place) (s : Settings) (layer : Layer) :
    Except LoadError Settings := do
  let data ← layer.load t workingDir
  match s.updateFrom layer.describe data with
  | .ok s => return s
  | .error e => throw (.settings e)

/-- The layers on top of the defaults, in increasing precedence. -/
def layers (dir : Path) (env : Environment) : List Layer :=
  [.project (dir.child "pyproject.toml") "", .document (dir.child ".xdmd.toml") "", .flags env]

/-- The settings in effect in a directory. -/
def load (t : FileTree) (workingDir : Place) (dir : Path) (env : Environment) :
    Except LoadError Settings :=
  (layers dir env).foldlM (addLayer t workingDir) {}

end Settings
end TriplePass
