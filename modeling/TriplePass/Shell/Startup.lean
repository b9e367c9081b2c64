import TriplePass.Shell.Lookup
import TriplePass.Shell.Position

/-! # Starting a shell

A shell is started with its own name, options and the script with its arguments; the script is a
file, a text among the arguments, or what stands in the standard input. Of the environment it takes
over the variables that it can name.
-/
namespace TriplePass.Shell

/-- The variables of every shell, unless they are given. -/
def defaults : List (String × String) :=
  [("PATH", "/usr/local/sbin:/usr/local/bin:/usr/sbin:/usr/bin:/sbin:/bin"), ("PS1", "# "),
    ("PS2", "> "), ("PS4", "+ ")]

/-- The variables that every shell sets anew. -/
def presets : List (String × String) :=
  [("IFS", " \t\n"), ("OPTIND", "1"), ("PPID", "999")]

def putValue (bindings : Dictionary Variable) (name : String) (value : Octets) (exported : Bool) :
    Dictionary Variable :=
  let v := (bindings.get? name).getD {}
  bindings.set name { v with value := some value, exported := v.exported || exported }

/-- The variables of a shell in an environment. -/
def startingVariables (env : List (String × Octets)) : Dictionary Variable :=
  let given := (env.filter fun e => isName e.1.toList).foldl
    (fun d e => putValue d e.1 e.2 true) []
  let given := presets.foldl (fun d e => putValue d e.1 e.2.toList false) given
  defaults.foldl
    (fun d e => if (d.get? e.1).isSome then d else putValue d e.1 e.2.toList false) given

/-- The name of the working directory: the one that is given, if it leads there. -/
def startingPath (t : FileTree) (workingDir : Place) (given : Option Octets) : Octets :=
  match given with
  | some name =>
    if name.head? = some '/' && (t.locateText workingDir (Octets.toText name)).toOption =
      some workingDir then name
    else physicalName workingDir
  | none => physicalName workingDir

/-- A shell that has not yet read its own arguments, of which the first is its name. -/
def fresh (t : FileTree) (workingDir : Place) (env : List (String × Octets))
    (arguments : List Octets) : State :=
  let bindings := startingVariables env
  let path := startingPath t workingDir ((bindings.get? "PWD").bind Variable.value)
  { tree := t
    workingDir
    path
    name := arguments.headD []
    arguments := arguments.tail
    bindings := putValue bindings "PWD" path true
    line := 0
    readLine := 0 }

/-- The environment of a program that is started from here. -/
def bequest (s : State) : List (String × Octets) :=
  s.bindings.filterMap fun (name, v) =>
    if v.exported then v.value.map fun text => (name, text) else none

/-- A shell that is started from another one: it has the environment and the open descriptors, and
the signals that are ignored stay so. -/
def descendant (s : State) (arguments : List Octets) : State :=
  { fresh s.tree s.workingDir (bequest s) arguments with
    deaf := s.deaf ++ (s.traps.filter (·.2.isEmpty)).map Prod.fst
    mask := s.mask
    descriptors := s.descriptors
    channels := s.channels
    nextChannel := s.nextChannel
    stdout := s.stdout
    stderr := s.stderr }

/-- What a shell that has ended leaves behind. -/
def State.inherit (s ended : State) : State :=
  { s with
    tree := ended.tree
    channels := ended.channels
    nextChannel := ended.nextChannel
    stdout := ended.stdout
    stderr := ended.stderr }

/-! ## The arguments of a shell -/

/-- The letters of one word; says whether one of them asks for a text to be executed. -/
def startLetters (on : Bool) : Octets → List Octets → Action (List Octets × Bool)
  | [], words => return (words, false)
  | 'o' :: more, words => do
    switchNamed on words.head?
    startLetters on more words.tail
  | 'c' :: more, words => do
    let (words, _) ← startLetters on more words
    return (words, true)
  | c :: more, words => do
    unless c = 'l' do switchLetter on c
    startLetters on more words

def startOptions : (fuel : Nat) → List Octets → Action (List Octets × Bool)
  | 0, words => return (words, false)
  | fuel + 1, words => do
    match words with
    | ['-'] :: rest | ['-', '-'] :: rest => return (rest, false)
    | ('-' :: more) :: rest =>
      let (rest, text) ← startLetters true more rest
      let (rest, others) ← startOptions fuel rest
      return (rest, text || others)
    | ('+' :: more) :: rest =>
      let (rest, text) ← startLetters false more rest
      let (rest, others) ← startOptions fuel rest
      return (rest, text || others)
    | _ => return (words, false)

/-- The content of a script; a directory has none. -/
def scriptText (name : Octets) : Action Octets := do
  let s ← get
  let refuse := fun (e : Errno) =>
    fail ("cannot open ".toList ++ name ++ ": ".toList ++
      (if Script.isMissing e then "No such file".toList else e.message.toList))
  match s.tree.locateText s.workingDir (Octets.toText name) with
  | .error e => refuse e
  | .ok place =>
    match s.tree.readAt place with
    | .ok content => return Octets.ofBytes content
    | .error .isDirectory => return []
    | .error e => refuse e

/-- Reads the shell's own arguments and gives the script, and whether it is a file. -/
def start : Action (Octets × Bool) := do
  let words := (← get).arguments
  let (words, text) ← startOptions (words.length + 1) words
  let begin := fun (name : Octets) (arguments : List Octets) =>
    modify fun s => { s with name, arguments, line := 1, readLine := 1 }
  match words with
  | [] =>
    if text then fail "-c requires an argument".toList
    else
      let s ← get
      let script := (s.unread 0).getD []
      set ((s.skip 0 script.length).switch .readStandardInput true)
      begin s.name []
      return (script, true)
  | word :: rest =>
    let s ← get
    if text then
      begin (rest.headD s.name) rest.tail
      return (word, false)
    else if s.isOn .readStandardInput then
      let script := (s.unread 0).getD []
      set (s.skip 0 script.length)
      begin s.name words
      return (script, true)
    else
      let script ← scriptText word
      begin word rest
      return (script, true)

end TriplePass.Shell
