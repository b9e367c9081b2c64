import TriplePass.Shell.Arithmetic
import TriplePass.Shell.Flags
import TriplePass.Shell.Signal

/-! # Traps, signals and jobs

Actions are set, listed and dropped for signals by number or name. A job in the background has come
to its end as soon as it is started, so that waiting for it only gives its status.
-/
namespace TriplePass.Shell

def listTraps : Action Unit := do
  let found := (← get).traps.mergeSort fun a b => decide (a.1 ≤ b.1)
  say 1 (found.flatMap fun (n, action) =>
    "trap -- ".toList ++ quotedText action ++ ' ' :: (Signal.name n).toList ++ ['\n'])

def setTrap (n : Nat) (action : Option Octets) : Action Unit :=
  modify fun s =>
    let others := s.traps.filter (·.1 != n)
    { s with traps := match action with
      | some action => (n, action) :: others
      | none => others }

/-- Sets an action for signals up to the first that does not exist. -/
def setTraps (action : Option Octets) : List Octets → Action Unit
  | [] => setStatus 0
  | word :: rest => do
    match Signal.number? 0 word with
    | some n =>
      setTrap n action
      setTraps action rest
    | none =>
      say 2 ("trap: ".toList ++ word ++ ": bad trap\n".toList)
      setStatus 1

def isNumber (word : Octets) : Bool :=
  !word.isEmpty && word.all Char.isDigit

def trap (words : List Octets) : Action Unit := do
  let (_, words) ← flags "" words
  match words with
  | [] =>
    listTraps
    setStatus 0
  | [_] => setTraps none words
  | first :: rest =>
    if isNumber first && (Signal.number? 0 first).isSome then setTraps none words
    else setTraps (if first = ['-'] then none else some first) rest

/-! ## Sending signals -/

def killUsage {α : Type} : Action α :=
  fail ("Usage: kill [-s sigspec | -signum | -sigspec] [pid | job]... or\n" ++
    "kill -l [exitstatus]").toList

def signalNamed (word : Octets) : Action Nat :=
  match Signal.number? 1 word with
  | some n => return n
  | none => fail ("invalid signal number or name: ".toList ++ word)

/-- The job that a word with a percent sign names. -/
def jobOf (word : Octets) : Action Job := do
  let jobs := (← get).jobs
  let found :=
    match word with
    | ['%'] | ['%', '%'] | ['%', '+'] => jobs.head?
    | ['%', '-'] => jobs[1]?
    | _ =>
      if isNumber word.tail then
        jobs.find? (·.slot == Arithmetic.digitsValue 10 word.tail)
      else none
  match found with
  | some job => return job
  | none => fail ("No such job: ".toList ++ word)

/-- Sends a signal to each process; says whether all of them were there. -/
def sendTo (n : Nat) : List Octets → Action Bool
  | [] => return true
  | word :: rest => do
    let target ←
      match word with
      | '%' :: _ => Job.process <$> jobOf word
      | '-' :: digits => numberOf digits
      | _ => numberOf word
    let s ← get
    let isOwn := target = State.processNumber || target = 0
    if isOwn then Signal.send n
    let isThere := isOwn || s.jobs.any (·.process == target)
    unless isThere do warn "No such process\n".toList
    let others ← sendTo n rest
    return isThere && others

def listSignals (words : List Octets) : Action Unit := do
  match words with
  | [] => say 1 ("0" :: Signal.names.tail |>.flatMap fun name => name.toList ++ ['\n'])
  | word :: _ =>
    let n ← numberOf word
    let n := if 128 < n then n - 128 else n
    if 0 < n && n < Signal.count then sayLine (Signal.name n).toList
    else fail ("invalid signal number or exit status: ".toList ++ word)

def kill (words : List Octets) : Action Unit := do
  let direct :=
    match words with
    | ('-' :: word) :: rest => (Signal.number? 1 word).map fun n => (n, rest)
    | _ => none
  let send := fun (n : Nat) (words : List Octets) => do
    if words.isEmpty then killUsage
    else
      let all ← sendTo n words
      setStatus (if all then 0 else 1)
  match direct with
  | some (n, rest) => send n rest
  | none =>
    let isFlagged := words.head?.any fun word => word.head? = some '-'
    let (found, rest) ← if isFlagged then flags "ls:" words else pure ([], words)
    let named ← (found.filter (·.letter == 's')).mapM fun f => signalNamed f.argument
    if has found 'l' then
      if named.isEmpty then
        listSignals rest
        setStatus 0
      else killUsage
    else send (named.getLast?.getD 15) rest

/-! ## Waiting -/

def noteWaited (chosen : Job → Bool) : Action Unit :=
  modify fun s => { s with
    jobs := s.jobs.map fun j => if chosen j then { j with waited := true } else j }

/-- The status of a job by its process or by its name. -/
def awaited (word : Octets) : Action Nat := do
  let job ←
    match word with
    | '%' :: _ => some <$> jobOf word
    | _ =>
      let n ← numberOf word
      pure ((← get).jobs.find? (·.process == n))
  match job with
  | some job =>
    noteWaited (·.slot == job.slot)
    return job.status
  | none => return 127

def waitFor (words : List Octets) : Action Unit := do
  let (_, words) ← flags "" words
  match ← words.mapM awaited with
  | [] =>
    noteWaited fun _ => true
    setStatus 0
  | statuses => setStatus (statuses.getLastD 0)

/-- Lists the jobs and forgets them, last one first. -/
def listJobs : Action Unit := do
  let line := fun (job : Job) =>
    let status := if job.status = 0 then [] else '(' :: Octets.ofNat job.status ++ [')']
    let text := '[' :: Octets.ofNat job.slot ++ "] + Done".toList ++ status
    text ++ List.replicate (33 - text.length) ' ' ++ ['\n']
  say 1 ((← get).jobs.flatMap line)
  modify fun s => { s with jobs := [], status := 0 }

/-- Refuses to bring a job to the fore: none is left running. -/
def noJob (words : List Octets) : Action Unit := do
  match words with
  | [] => fail "No current job".toList
  | word :: _ =>
    let _ ← jobOf word
    fail "job not created under job control".toList

end TriplePass.Shell
