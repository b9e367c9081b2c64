import TriplePass.Script
import TriplePass.Shell.Directory
import TriplePass.Shell.Parser

/-! # Finding commands

A name is a function, a command of the shell itself, or a program that the search path leads to; in
a script it may also be a keyword or an alias. A program must be a regular file that may be
executed.
-/
namespace TriplePass.Shell

/-- The commands of the shell besides the special ones. -/
def plainCommands : List String :=
  ["alias", "bg", "cd", "chdir", "command", "echo", "false", "fg", "getopts", "hash", "jobs",
    "kill", "printf", "pwd", "read", "test", "true", "type", "ulimit", "umask", "unalias", "wait",
    "["]

def isSpecialCommand (name : Octets) : Bool :=
  specialCommands.contains (String.ofList name)

def isShellCommand (name : Octets) : Bool :=
  isSpecialCommand name || plainCommands.contains (String.ofList name)

/-- The commands that take assignments among their arguments. -/
def takesAssignments (name : Octets) : Bool :=
  ["alias", "export", "local", "readonly"].contains (String.ofList name)

def standardPath : Octets :=
  "/usr/local/sbin:/usr/local/bin:/usr/sbin:/usr/bin:/sbin:/bin".toList

def functionOf (s : State) (name : Octets) : Option Command :=
  s.functions.get? (String.ofList name)

/-- Whether a program can be executed at a path, or why not. -/
def checkProgram (s : State) (path : Octets) : Except Errno Unit := do
  let place ← s.tree.locateText s.workingDir (Octets.toText path)
  match s.tree.entryAt place with
  | some (.file true _) => return ()
  | some _ => throw .denied
  | none => throw .absent

def firstProgram (s : State) (name : Octets) : (known : Errno) → List Octets → Except Errno Octets
  | known, [] => .error known
  | known, dir :: rest =>
    match checkProgram s (below dir name) with
    | .ok () => .ok (below dir name)
    | .error e => firstProgram s name (if Script.isMissing e then known else e) rest

/-- The path of a program. A name with a slash is taken as it stands. -/
def programPath (s : State) (searchPath name : Octets) : Except Errno Octets :=
  if name.contains '/' then .ok name
  else firstProgram s name .absent (searchPlaces searchPath)

def searchPath (s : State) : Octets :=
  (s.valueOf "PATH".toList).getD []

def refusalText (e : Errno) : Octets :=
  if Script.isMissing e then "not found".toList else e.message.toList

/-! ## Aliases -/

/-- Where an alias stands in the listing. -/
def aliasOrder (name : Octets) : Nat :=
  (16 * (name.headD '\x00').toNat + name.foldl (fun n c => n + c.toNat) 0) % 39

def showAlias (name value : Octets) : Action Unit :=
  sayLine (name ++ '=' :: quotedText value)

def aliasWord (word : Octets) : Action Bool := do
  let s ← get
  match word with
  | [] => return false
  | c :: rest =>
    let name := c :: rest.takeWhile (· != '=')
    match word.drop name.length with
    | _ :: value =>
      set { s with aliases := s.aliases.set (String.ofList name) value }
      return true
    | [] =>
      match s.aliases.get? (String.ofList name) with
      | some value =>
        showAlias name value
        return true
      | none =>
        say 2 ("alias: ".toList ++ name ++ " not found\n".toList)
        return false

def aliasWords (words : List Octets) : Action Unit := do
  if words.isEmpty then
    let all := (← get).aliases.mergeSort fun a b =>
      decide (aliasOrder a.1.toList ≤ aliasOrder b.1.toList)
    all.forM fun (name, value) => showAlias name.toList value
    setStatus 0
  else
    let results ← words.mapM aliasWord
    setStatus (if results.all id then 0 else 1)

def unaliasWord (word : Octets) : Action Bool := do
  let s ← get
  if (s.aliases.get? (String.ofList word)).isSome then
    set { s with aliases := s.aliases.filter (·.1 != String.ofList word) }
    return true
  else
    say 2 ("unalias: ".toList ++ word ++ " not found\n".toList)
    return false

def unaliasWords (words : List Octets) : Action Unit := do
  let (found, words) ← flags "a" words
  if has found 'a' then
    modify fun s => { s with aliases := [] }
    setStatus 0
  else
    let results ← words.mapM unaliasWord
    setStatus (if results.all id then 0 else 1)

/-! ## Descriptions -/

/-- Says what a name means, in full or only by what would be executed. -/
def describe (verbose : Bool) (searchPath name : Octets) : Action Nat := do
  let s ← get
  let tell := fun (meaning : String) (text : Octets) => do
    sayLine (if verbose then name ++ meaning.toList else text)
    return 0
  if keywords.contains (String.ofList name) then tell " is a shell keyword" name
  else
    match s.aliases.get? (String.ofList name) with
    | some value =>
      if verbose then sayLine (name ++ " is an alias for ".toList ++ value)
      else
        say 1 "alias ".toList
        showAlias name value
      return 0
    | none =>
      if (functionOf s name).isSome then tell " is a shell function" name
      else if isSpecialCommand name then tell " is a special shell builtin" name
      else if isShellCommand name then tell " is a shell builtin" name
      else
        let path :=
          if name.contains '/' then
            if (s.tree.locateText s.workingDir (Octets.toText name)).toOption.isSome then some name
            else none
          else (programPath s searchPath name).toOption
        match path with
        | some path =>
          sayLine (if verbose then name ++ " is ".toList ++ path else path)
          return 0
        | none =>
          if verbose then sayLine (name ++ ": not found".toList)
          return 127

def describeAll (words : List Octets) : Action Unit := do
  let path := searchPath (← get)
  let results ← words.mapM (describe true path)
  setStatus (results.foldl max 0)

/-- Executes `command` when its flags ask for a description, or for nothing. -/
def describeCommand (words : List Octets) : Action Unit := do
  let (found, words) ← flags "pvV" words
  let s ← get
  let path := if has found 'p' then standardPath else searchPath s
  match words with
  | word :: _ =>
    if has found 'v' || has found 'V' then setStatus (← describe (has found 'V') path word)
    else setStatus 0
  | [] => setStatus 0

/-- Looks programs up in advance; the answers need not be kept. -/
def hashWords (words : List Octets) : Action Unit := do
  let (_, words) ← flags "r" words
  let s ← get
  let check := fun (name : Octets) => do
    if isShellCommand name || (functionOf s name).isSome then return true
    else
      match programPath s (searchPath s) name with
      | .ok _ => return true
      | .error e =>
        warn (name ++ ": ".toList ++ refusalText e)
        return false
  let results ← words.mapM check
  setStatus (if results.all id then 0 else 1)

end TriplePass.Shell
