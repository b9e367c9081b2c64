import TriplePass.Dictionary
import TriplePass.FileTree
import TriplePass.Shell.Syntax

/-! # The state of a shell

A shell holds its variables, functions, options and traps, and the file tree. A descriptor leads to
an open channel: one of the two streams, a file with a position in it, a text that is read, or a
pipe that is written. Subshells share the channels, so what one of them reads the others do not.
-/
namespace TriplePass.Shell

structure Variable where
  value : Option Octets := none
  exported : Bool := false
  fixed : Bool := false
  deriving DecidableEq, Repr

inductive Access where
  | read
  | write
  | append
  | readWrite
  deriving DecidableEq, Repr

inductive Channel where
  | stdout
  | stderr
  | nowhere
  /-- A device that takes nothing in. -/
  | full
  | file (place : Place) (offset : Nat) (access : Access)
  | input (text : Octets)
  /-- What has been written so far, last write first. -/
  | pipe (written : List Octets)
  deriving DecidableEq, Repr

inductive Setting where
  | allExport | noBackground | noOverwrite | exitOnError | noPatterns | ignoreEnd | interactive
  | monitor | noExecution | readStandardInput | trace | verbose | viMode | emacsMode | noUnset
  | noLog | debugMode | privileged
  deriving DecidableEq, Repr

/-- The options in the order in which they are listed, each with its letter and name. -/
def settings : List (Setting × Option Char × String) :=
  [(.exitOnError, some 'e', "errexit"), (.noPatterns, some 'f', "noglob"),
    (.ignoreEnd, some 'I', "ignoreeof"), (.interactive, some 'i', "interactive"),
    (.monitor, some 'm', "monitor"), (.noExecution, some 'n', "noexec"),
    (.readStandardInput, some 's', "stdin"), (.trace, some 'x', "xtrace"),
    (.verbose, some 'v', "verbose"), (.viMode, some 'V', "vi"), (.emacsMode, some 'E', "emacs"),
    (.noOverwrite, some 'C', "noclobber"), (.allExport, some 'a', "allexport"),
    (.noBackground, some 'b', "notify"), (.noUnset, some 'u', "nounset"),
    (.privileged, some 'p', "privileged"), (.noLog, none, "nolog"), (.debugMode, none, "debug")]

/-- A process in the background, which has ended. -/
structure Job where
  slot : Nat
  process : Nat
  status : Nat
  waited : Bool := false
  deriving DecidableEq, Repr

/-- What a command with variables of its own hides, and options if it has these of its own too. -/
structure Frame where
  bindings : List (String × Option Variable) := []
  settings : Option (List Setting) := none
  deriving DecidableEq, Repr

structure State where
  tree : FileTree
  workingDir : Place
  /-- The name of the working directory as it was reached. -/
  path : Octets
  formerPath : Option Octets := none
  name : Octets
  arguments : List Octets
  bindings : Dictionary Variable := []
  functions : Dictionary Command := []
  aliases : Dictionary Octets := []
  settings : List Setting := []
  /-- The actions for signals, of which number 0 is the end of the shell; an empty one ignores. -/
  traps : List (Nat × Octets) := []
  /-- The signals that the shell was started without hearing. -/
  deaf : List Nat := []
  /-- The actions of the shell around all subshells. -/
  outerTraps : List (Nat × Octets) := []
  /-- Signals that have come in and not been acted upon, last one first. -/
  pending : List Nat := []
  /-- A signal that has ended the shell around all subshells while a subshell goes on. -/
  doomed : Option Nat := none
  status : Nat := 0
  /-- Whether something could not be written. -/
  unwritten : Bool := false
  /-- The status of the last substitution in the current command. -/
  substituted : Nat := 0
  /-- The line of the command that is executed, and the line up to which the script is read. -/
  line : Nat := 1
  readLine : Nat := 1
  /-- The command that the shell itself is executing, for its messages. -/
  command : Option Octets := none
  /-- The loops around the command that is executed, and the functions that are active. -/
  loops : Nat := 0
  calls : Nat := 0
  /-- What is hidden, innermost first. -/
  hidden : List Frame := []
  /-- How many subshells are around. -/
  depth : Nat := 0
  /-- The next argument that options are looked for in, and how much of it has been read. -/
  optionIndex : Nat := 1
  optionOffset : Option Nat := none
  /-- The status at which the action for a signal or for the end has come in. -/
  interrupted : Option Nat := none
  mask : Nat := 18
  /-- The limits that have been set, by their letters. -/
  limits : List (Char × Octets) := []
  /-- The jobs, last one first, and how many there have been. -/
  jobs : List Job := []
  started : Nat := 0
  descriptors : List (Nat × Nat) := [(0, 0), (1, 1), (2, 2)]
  channels : List (Nat × Channel) := [(0, .nowhere), (1, .stdout), (2, .stderr)]
  nextChannel : Nat := 3
  /-- What was written to the two streams, last write first. -/
  stdout : List Octets := []
  stderr : List Octets := []

/-- Why a shell stops where it stands. -/
inductive Halt where
  | exited (status : Nat)
  /-- The process is over at once; negative if a signal has ended it. -/
  | gone (status : Int)
  /-- A program has taken the place of the shell, and has ended. -/
  | replaced (status : Int)
  /-- An error has been reported, which ends the shell unless a command of its own has caused it. -/
  | failed (status : Nat)
  | broken (levels : Nat)
  | continued (levels : Nat)
  | returned
  deriving DecidableEq, Repr

abbrev Action := EStateM Halt State

namespace State

/-- A process number; scripts use it to send themselves a signal. -/
def processNumber : Nat := 1000

def isOn (s : State) (o : Setting) : Bool :=
  s.settings.contains o

/-- Whether the status of a command ends the shell, which it never does where it is tested. -/
def endsOn (s : State) (tested : Bool) : Bool :=
  s.isOn .exitOnError && !tested && s.status ≠ 0

def switch (s : State) (o : Setting) (on : Bool) : State :=
  let others := s.settings.filter (· != o)
  { s with settings := if on then o :: others else others }

/-- The letters of the options that are on, last ones first. -/
def flags (s : State) : Octets :=
  (Shell.settings.filterMap fun (o, letter, _) => if s.isOn o then letter else none).reverse

/-- The actions of the process that signals are sent to. -/
def mainTraps (s : State) : List (Nat × Octets) :=
  if s.depth = 0 then s.traps else s.outerTraps

/-! ## Variables -/

def binding? (s : State) (name : Octets) : Option Variable :=
  s.bindings.get? (String.ofList name)

def valueOf (s : State) (name : Octets) : Option Octets :=
  (s.binding? name).bind Variable.value

def putVariable (s : State) (name : Octets) (v : Variable) : State :=
  { s with bindings := s.bindings.set (String.ofList name) v }

def dropVariable (s : State) (name : Octets) : State :=
  { s with bindings := s.bindings.filter (·.1 != String.ofList name) }

/-- The characters that separate fields. -/
def separators (s : State) : Octets :=
  (s.valueOf "IFS".toList).getD " \t\n".toList

/-- What stands between arguments that are joined. -/
def joint (s : State) : Octets :=
  match s.binding? "IFS".toList with
  | some { value := some ifs, .. } => ifs.take 1
  | _ => [' ']

def joined (texts : List Octets) : Octets :=
  [' '].intercalate texts

/-- The value of a parameter, if it is set. -/
def parameter (s : State) (name : Octets) : Option Octets :=
  match name with
  | ['#'] => some (Octets.ofNat s.arguments.length)
  | ['?'] => some (Octets.ofNat s.status)
  | ['$'] => some (Octets.ofNat processNumber)
  | ['-'] => some s.flags
  | ['!'] => if s.started = 0 then none else some (Octets.ofNat (processNumber + s.started))
  | ['@'] | ['*'] => some (s.joint.intercalate s.arguments)
  | c :: _ =>
    if c.isDigit then
      match (String.ofList name).toNat? with
      | some 0 => some s.name
      | some n => s.arguments[n - 1]?
      | none => none
    else s.valueOf name
  | [] => none

/-- The variables that a program started from here sees. -/
def environment (s : State) : Environment :=
  s.bindings.filterMap fun (name, v) =>
    if v.exported then v.value.map fun text => (name, Octets.toText text) else none

/-! ## Channels -/

def channelOf? (s : State) (descriptor : Nat) : Option (Nat × Channel) := do
  let id ← s.descriptors.lookup descriptor
  let channel ← s.channels.lookup id
  return (id, channel)

def putChannel (s : State) (id : Nat) (c : Channel) : State :=
  { s with channels := (id, c) :: s.channels.filter (·.1 != id) }

/-- Lets a descriptor lead to a channel that is new. -/
def openChannel (s : State) (descriptor : Nat) (c : Channel) : State :=
  { s with
    channels := (s.nextChannel, c) :: s.channels
    descriptors := (descriptor, s.nextChannel) :: s.descriptors.filter (·.1 != descriptor)
    nextChannel := s.nextChannel + 1 }

def closeDescriptor (s : State) (descriptor : Nat) : State :=
  { s with descriptors := s.descriptors.filter (·.1 != descriptor) }

/-- The content with a text written at a position; a gap is filled with NUL. -/
def overwritten (content text : Bytes) (offset : Nat) : Bytes :=
  content.take offset ++ List.replicate (offset - content.length) 0 ++ text ++
    content.drop (offset + text.length)

def contentAt (s : State) (place : Place) : Bytes :=
  match s.tree.entryAt place with
  | some (.file _ content) => content
  | _ => []

/-- Writes into a file that is still there. -/
def writeFile (s : State) (id : Nat) (place : Place) (offset : Nat) (access : Access)
    (text : Bytes) : State :=
  match s.tree.entryAt place with
  | some (.file executable content) =>
    let offset := if access = .append then content.length else offset
    { s with tree := s.tree.put place (.file executable (overwritten content text offset)) }
      |>.putChannel id (.file place (offset + text.length) access)
  | _ => s

/-- Writes to a descriptor, if it is open for that. -/
def write? (s : State) (descriptor : Nat) (text : Octets) : Option State := do
  let (id, channel) ← s.channelOf? descriptor
  match channel with
  | .stdout => return { s with stdout := text :: s.stdout }
  | .stderr => return { s with stderr := text :: s.stderr }
  | .nowhere => return s
  | .file _ _ .read | .full | .input _ => none
  | .file place offset access => return s.writeFile id place offset access (Octets.toBytes text)
  | .pipe written => return s.putChannel id (.pipe (text :: written))

def write (s : State) (descriptor : Nat) (text : Octets) : State :=
  if text.isEmpty then s
  else (s.write? descriptor text).getD { s with unwritten := s.unwritten || descriptor = 1 }

/-- What can still be read from a descriptor, if it is open for that. -/
def unread (s : State) (descriptor : Nat) : Option Octets := do
  let (_, channel) ← s.channelOf? descriptor
  match channel with
  | .input text => return text
  | .file _ _ .write | .file _ _ .append => none
  | .file place offset _ => return Octets.ofBytes ((s.contentAt place).drop offset)
  | _ => return []

/-- Takes so many characters from a descriptor. -/
def skip (s : State) (descriptor n : Nat) : State :=
  match s.channelOf? descriptor with
  | some (id, .input text) => s.putChannel id (.input (text.drop n))
  | some (id, .file place offset access) => s.putChannel id (.file place (offset + n) access)
  | _ => s

end State

def setStatus (status : Nat) : Action Unit :=
  modify fun s => { s with status }

def say (descriptor : Nat) (text : Octets) : Action Unit :=
  modify (·.write descriptor text)

/-- Reports an error at the current line, for the command that is executed, if there is one. -/
def warn (text : Octets) : Action Unit := do
  let s ← get
  let command :=
    match s.command with
    | some name => name ++ ": ".toList
    | none => []
  say 2 (s.name ++ ": ".toList ++ Octets.ofNat s.line ++ ": ".toList ++ command ++ text ++ ['\n'])

/-- Reports an error that ends what is going on. -/
def fail {α : Type} (text : Octets) : Action α := do
  warn text
  throw (.failed 2)

/-- The number that a text of digits alone is. -/
def numberOf (text : Octets) : Action Nat :=
  if !text.isEmpty && text.all Char.isDigit then
    match (String.ofList text).toNat? with
    | some n => if n < Nat.pow 2 31 then return n else fail ("Illegal number: ".toList ++ text)
    | none => return 0
  else fail ("Illegal number: ".toList ++ text)

/-- Sets a variable that may be set. The variable for the position among the options sets that
position. -/
def assign (name value : Octets) : Action Unit := do
  let s ← get
  let v := (s.binding? name).getD {}
  if v.fixed then fail (name ++ ": is read only".toList)
  else
    set (s.putVariable name { v with
      value := some value
      exported := v.exported || s.isOn .allExport })
    if name = "OPTIND".toList then
      let n ← numberOf value
      modify fun s => { s with optionIndex := max 1 n, optionOffset := none }

end TriplePass.Shell
