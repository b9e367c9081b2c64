import TriplePass.Shell.Format
import TriplePass.Shell.Mode
import TriplePass.Shell.Process
import TriplePass.Shell.ReadLine
import TriplePass.Shell.Test

/-! # The commands of the shell itself

Each command takes the words behind its name and leaves a status. Those that execute further
commands come with the way in which these are executed.
-/
namespace TriplePass.Shell

/-! ## Leaving -/

/-- Ends the shell; in the action for a signal, without a word, with the status before it. -/
def exitWith (words : List Octets) : Action Unit := do
  match words with
  | word :: _ => throw (.exited ((← numberOf word) % 256))
  | [] =>
    let s ← get
    throw (.exited (s.interrupted.getD s.status))

/-- Leaves a function or a file with a status, which may also be the end of the shell. -/
def returnWith (tested : Bool) (words : List Octets) : Action Unit := do
  match words with
  | word :: _ => setStatus (← numberOf word)
  | [] => pure ()
  let s ← get
  throw (if s.endsOn tested then .exited s.status else .returned)

/-- Leaves or goes on with so many loops, but never more than there are. -/
def leaveLoops (halt : Nat → Halt) (words : List Octets) : Action Unit := do
  let n ←
    match words with
    | word :: _ =>
      let n ← numberOf word
      if n = 0 then fail ("Illegal number: ".toList ++ word) else pure n
    | [] => pure 1
  let n := min n (← get).loops
  setStatus 0
  unless n = 0 do throw (halt n)

/-! ## Limits -/

def padOctal (n : Nat) : Octets :=
  Decimal.padded 4 (Nat.toDigits 8 n)

/-- The rights that a mask leaves to one class of users. -/
def rightsText (bits : Nat) : Octets :=
  (if bits.testBit 2 then [] else ['r']) ++ (if bits.testBit 1 then [] else ['w']) ++
    (if bits.testBit 0 then [] else ['x'])

def umask (words : List Octets) : Action Unit := do
  let (found, words) ← flags "S" words
  let mask := (← get).mask
  match words with
  | [] =>
    if has found 'S' then
      sayLine ("u=".toList ++ rightsText (mask / 64) ++ ",g=".toList ++ rightsText (mask / 8 % 8) ++
        ",o=".toList ++ rightsText (mask % 8))
    else sayLine (padOctal mask)
  | word :: _ =>
    if word.head?.any Char.isDigit then
      if word.all Format.isOctalDigit then
        modify fun s => { s with mask := Arithmetic.digitsValue 8 word % 512 }
      else fail ("Illegal number: ".toList ++ word)
    else
      match Mode.changed? word (511 - mask) with
      | some mode => modify fun s => { s with mask := 511 - mode }
      | none => fail ("Illegal mode: ".toList ++ word)
  setStatus 0

/-- Limits are kept and have no effect. -/
def ulimit (words : List Octets) : Action Unit := do
  let (found, words) ← flags "HSatfdscmlpnvwr" words
  let letter := ((found.map Flag.letter).filter fun c => !"HSa".toList.contains c).getLastD 'f'
  match words with
  | [] => sayLine (((← get).limits.lookup letter).getD "unlimited".toList)
  | word :: _ =>
    if word = "unlimited".toList || isNumber word then
      modify fun s => { s with limits := (letter, word) :: s.limits }
    else fail "bad number".toList
  setStatus 0

def times : Action Unit := do
  sayLine "0m0.000000s 0m0.000000s".toList
  sayLine "0m0.000000s 0m0.000000s".toList
  setStatus 0

/-! ## Texts and files -/

section
variable (execute : (tested : Bool) → Command → Action Unit)

def evaluateWords (tested : Bool) (words : List Octets) : Action Unit :=
  executeText execute tested false (State.joined words)

/-- The file that a name stands for: as it is with a slash in it, or a file that the search path
leads to. -/
def sourceName (s : State) (name : Octets) : Option Octets :=
  if name.contains '/' then some name
  else
    ((searchPlaces (searchPath s)).map (below · name)).find? fun path =>
      (Test.kindOf s path).any Entry.isFile

/-- Executes a file in the shell itself. -/
def source (words : List Octets) : Action Unit := do
  let (_, words) ← flags "" words
  match words with
  | [] => setStatus 0
  | name :: _ =>
    match sourceName (← get) name with
    | none => fail (name ++ ": not found".toList)
    | some path =>
      let script ← scriptText path
      setCommand (some path)
      tryCatch (executeText execute false true script) fun
        | .returned => return
        | halt => throw halt

def execWords (words : List Octets) : Action Unit :=
  if words.isEmpty then setStatus 0 else replaceBy execute words

/-- Executes a command of the shell. -/
def builtin (tested : Bool) (name : Octets) (words : List Octets) : Action Unit :=
  match String.ofList name with
  | "." => source execute words
  | ":" | "true" => setStatus 0
  | "false" => setStatus 1
  | "[" => Test.run true words
  | "alias" => aliasWords words
  | "bg" | "fg" => noJob words
  | "break" => leaveLoops .broken words
  | "cd" | "chdir" => changeDirectory words
  | "command" => describeCommand words
  | "continue" => leaveLoops .continued words
  | "echo" => Format.echo words
  | "eval" => evaluateWords execute tested words
  | "exec" => execWords execute words
  | "exit" => exitWith words
  | "export" => declare .exported name words
  | "getopts" => getOptions words
  | "hash" => hashWords words
  | "jobs" => listJobs
  | "kill" => kill words
  | "local" => localWords words
  | "printf" => Format.print words
  | "pwd" => printDirectory words
  | "read" => readWords words
  | "readonly" => declare .fixed name words
  | "return" => returnWith tested words
  | "set" => setWords words
  | "shift" => shift words
  | "test" => Test.run false words
  | "times" => times
  | "trap" => trap words
  | "type" => describeAll words
  | "ulimit" => ulimit words
  | "umask" => umask words
  | "unalias" => unaliasWords words
  | "unset" => unset words
  | "wait" => waitFor words
  | _ => setStatus 127

end

/-- Executes a command of the shell under its name. An error that it reports ends the shell if it
is fatal, and counts as its status otherwise. -/
def asBuiltin (fatal : Bool) (name : Octets) (body : Action Unit) : Action Unit := do
  let outer := (← get).command
  modify fun s => { s with command := some name, unwritten := false }
  let halt : Option Halt ← tryCatch (do body; return none) fun halt => return some halt
  if halt.isNone && (← get).unwritten then
    setCommand (some name)
    warn (name ++ ": I/O error".toList)
    setStatus 1
  modify fun s => { s with command := outer, unwritten := false }
  match halt with
  | none => return
  | some (.failed n) => if fatal then throw (.failed n) else setStatus n
  | some halt => throw halt

end TriplePass.Shell
