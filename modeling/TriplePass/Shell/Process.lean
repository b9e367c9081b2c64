import TriplePass.Shell.Redirection
import TriplePass.Shell.Startup
import TriplePass.Shell.Trap

/-! # Executing texts, subshells and programs

What takes a whole script, or a whole shell, to be executed: the text of a trap, a substitution, a
program. How a single command is executed comes as a parameter. A subshell starts as a copy of the
shell around it, which goes on afterwards with the files and streams as they have been left.
-/
namespace TriplePass.Shell

def setCommand (command : Option Octets) : Action Unit :=
  modify fun s => { s with command }

def reportFault (e : SyntaxFault) : Action Unit := do
  modify fun s => { s with line := e.line }
  fail ("Syntax error: ".toList ++ e.text)

/-- How the end of a child is reported and what its status is. -/
def childStatus (status : Int) : Action Nat := do
  if 0 ≤ status then return (status % 256).toNat
  else
    let signal := status.natAbs
    (Signal.report? signal).forM fun text => say 2 (text ++ "\n").toList
    return 128 + signal

/-- Ends the shell around all subshells once none of them is left. -/
def meetDoom : Action Unit := do
  let s ← get
  if s.depth = 0 then s.doomed.forM fun n => throw (.gone (-n))

section
variable (execute : (tested : Bool) → Command → Action Unit)

/-! ## Texts -/

/-- So many lines from the start of a text. -/
def firstLines : (count : Nat) → Octets → Octets
  | 0, _ => []
  | _ + 1, [] => []
  | count + 1, c :: cs => c :: firstLines (if c = '\n' then count else count + 1) cs

/-- What is read of a text until commands or a mistake have been found. -/
def passedOver (k : Cursor) {α : Type} : Except SyntaxFault (α × Cursor) → Octets
  | .ok (_, l) => k.rest.take (k.rest.length - l.rest.length)
  | .error e => firstLines (e.line + 1 - k.line) k.rest

/-- Executes a text line by line; `ran` says whether there has been a command. Without one the
status is 0. A file may be shown as it is read. -/
def executeLines (tested isFile : Bool) : (fuel : Nat) → (ran : Bool) → Cursor → Action Unit
  | 0, _, _ => return
  | fuel + 1, ran, k => do
    let s ← get
    let result := nextCommands { k with aliases := s.aliases }
    if isFile && s.isOn .verbose then say 2 (passedOver k result)
    match result with
    | .error e => reportFault e
    | .ok (none, _) => unless ran do setStatus 0
    | .ok (some found, k') =>
      modify fun s => { s with readLine := k'.line }
      match found with
      | some c =>
        execute tested c
        executeLines tested isFile fuel true k'
      | none => executeLines tested isFile fuel ran k'

def executeText (tested isFile : Bool) (text : Octets) : Action Unit := do
  let text := text.filter (· != '\x00')
  let readLine := (← get).readLine
  afterwards (executeLines execute tested isFile (text.length + 2) false { rest := text })
    (modify fun s => { s with readLine })

/-! ## The end of a shell -/

/-- Ends a shell with a status, after the action that is set for its end. -/
def leave (status : Nat) : Action Nat := do
  setStatus status
  let action := ((← get).traps.lookup 0).getD []
  setTrap 0 none
  if action.isEmpty then return status
  else
    modify fun s => { s with interrupted := some status, command := none }
    tryCatch (do executeText execute false false action; return status) fun
      | .exited n | .failed n => return n
      | .gone n => throw (.gone n)
      | .replaced n => throw (.replaced n)
      | _ => return status

/-- Executes something up to the end of its shell, whose status it gives. -/
def toEnd (body : Action Unit) : Action Nat := do
  let status ← tryCatch (do body; return (← get).status) fun
    | .exited n | .failed n => return n
    | .gone n => throw (.gone n)
    | .replaced n => throw (.replaced n)
    | _ => return (← get).status
  leave execute status

/-! ## Subshells -/

/-- Executes something in a subshell; the status is negative if it has become a program that was
ended by a signal. -/
def inSubshell (body : Action Unit) : Action Int := do
  let outer ← get
  set { outer with
    depth := outer.depth + 1
    traps := outer.traps.filter (·.2.isEmpty)
    outerTraps := outer.mainTraps
    interrupted := none }
  let status : Int ← tryCatch (do return (← toEnd execute body)) fun
    | .replaced n => return n
    | halt => throw halt
  modify fun inner => { outer.inherit inner with pending := inner.pending, doomed := inner.doomed }
  return if 0 ≤ status then status % 256 else status

/-- Executes something in a subshell, whose output it gives. -/
def collecting (body : Action Unit) : Action (Octets × Int) := do
  let id := (← get).nextChannel
  let status ← inSubshell execute do
    modify (·.openChannel 1 (.pipe []))
    body
  let s ← get
  set { s with channels := s.channels.filter (·.1 != id) }
  match s.channels.lookup id with
  | some (.pipe written) => return (written.reverse.flatten, status)
  | _ => return ([], status)

/-- What a command in a word writes. -/
def substitute (body : Option Command) : Action Octets := do
  match body with
  | none =>
    modify fun s => { s with substituted := 0 }
    return []
  | some c =>
    let (written, status) ← collecting execute (execute false c)
    meetDoom
    let substituted ← childStatus status
    modify fun s => { s with substituted }
    return written

/-! ## Programs -/

/-- Runs a shell from its arguments to its end. -/
def shell : Action Int := do
  let body := do
    let (script, isFile) ← start
    executeText execute false isFile script
  tryCatch (do return (← toEnd execute body)) fun
    | .gone n | .replaced n => return n
    | _ => return 0

/-- Runs a shell as a child of this one. -/
def runChild (arguments : List Octets) : Action Int := do
  let s ← get
  match shell execute (descendant s arguments) with
  | .ok status ended | .error (.gone status) ended =>
    set (s.inherit ended)
    return if 0 ≤ status then status % 256 else status
  | .error _ ended =>
    set (s.inherit ended)
    return 0

/-- Runs the program at a path; a file of unknown format is taken for a script. -/
def runProgram (path : Octets) (words : List Octets) : Action (Except Errno Int) := do
  let s ← get
  match Script.load s.tree s.workingDir (Octets.toText path) (Octets.toText (words.headD [])) with
  | .ok intro =>
    let intro := if intro.length = 1 then words.take 1 else intro.map Octets.ofText
    return .ok (← runChild execute (intro ++ words.tail))
  | .error .notExecutableFormat =>
    return .ok (← runChild execute ("/bin/sh".toList :: path :: words.tail))
  | .error e => return .error e

def refusalStatus (e : Errno) : Nat :=
  if Script.isMissing e || e == .nameTooLong || e == .tooManyLinks then 127 else 126

/-- Executes a program as a command. -/
def runExternal (path : Octets) (words : List Octets) : Action Unit := do
  let name := words.headD []
  match programPath (← get) path name with
  | .error e =>
    warn (name ++ ": ".toList ++ refusalText e)
    setStatus 127
  | .ok place =>
    match ← runProgram execute place words with
    | .ok status => setStatus (← childStatus status)
    | .error e =>
      warn (name ++ ": ".toList ++ refusalText e)
      setStatus (refusalStatus e)

/-- Lets a program take the place of the shell. -/
def replaceBy (words : List Octets) : Action Unit := do
  let name := words.headD []
  let s ← get
  let paths :=
    if name.contains '/' then [name] else (searchPlaces (searchPath s)).map (below · name)
  try1 .absent paths
where
  try1 (known : Errno) : List Octets → Action Unit
    | [] => do
      warn (words.headD [] ++ ": ".toList ++ refusalText known)
      throw (.exited (refusalStatus known))
    | path :: rest => do
      match ← runProgram execute path words with
      | .ok status => throw (.replaced status)
      | .error e => try1 (if Script.isMissing e then known else e) rest

/-! ## Signals -/

/-- Executes the action for a signal; the status stays as it was, unless the action returns. -/
def actOn (action : Octets) : Action Unit := do
  let s ← get
  set { s with interrupted := s.interrupted.or (some s.status) }
  afterwards (executeText execute false false action)
    (modify fun t => { t with interrupted := s.interrupted })
  setStatus s.status

/-- Acts on the signals that have come in, lower ones first. -/
def actOnSignals : (fuel : Nat) → Action Unit
  | 0 => return
  | fuel + 1 => do
    let s ← get
    match if s.depth = 0 then s.pending.min? else none with
    | none => return
    | some n =>
      set { s with pending := s.pending.filter (· != n) }
      (s.traps.lookup n).forM (actOn execute)
      actOnSignals fuel

end

end TriplePass.Shell
