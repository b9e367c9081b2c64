import TriplePass.Shell.Builtin

/-! # Executing commands

A simple command is expanded from left to right until it is known what it is; then its redirections
are opened, its assignments made, and it is executed as a function, as a command of the shell or as
a program. Compound commands are executed by their parts. A command that fails ends the shell if the
option for that is on, unless it stands where its status is tested.
-/
namespace TriplePass.Shell

section
variable (execute : (tested : Bool) → Command → Action Unit)

/-! ## Functions -/

/-- How many functions can be active at the same time. -/
def maxCalls : Nat := 1000

/-- Counts a call as long as it lasts. One that is refused stays counted. -/
def counted (call : Action Unit) : Action Unit := do
  modify fun s => { s with calls := s.calls + 1 }
  if maxCalls < (← get).calls then
    fail ("Maximum function recursion depth (".toList ++ Octets.ofNat maxCalls ++
      ") reached".toList)
  afterwards call (modify fun s => { s with calls := s.calls - 1 })

/-- Calls a function; arguments, options and loops are its own as long as it lasts. -/
def callFunction (tested : Bool) (body : Command) (arguments : List Octets) : Action Unit :=
  counted do
    let s ← get
    let restore : Action Unit :=
      modify fun t => { t with
        arguments := s.arguments
        optionIndex := s.optionIndex
        optionOffset := s.optionOffset
        loops := s.loops }
    setArguments arguments
    modify fun t => { t with loops := 0 }
    afterwards (withFrame (tryCatch (execute tested body) fun
      | .returned => return
      | halt => throw halt)) restore

/-! ## Simple commands -/

/-- What a name means as a command. -/
inductive Meaning where
  | function (body : Command)
  | builtin
  | program

def meaning (s : State) (functions : Bool) (name : Octets) : Meaning :=
  match if functions then functionOf s name else none with
  | some body => .function body
  | none => if isShellCommand name then .builtin else .program

/-- The start of a simple command: the fields that have been expanded, the words that have not, and
what is known by then. The first command of the shell decides whether errors are fatal and whether
assignments stay; `command` in front of another one is dropped. -/
structure Lead where
  found : List Octets := []
  rest : List Word
  special : Option Bool := none
  declares : Bool := false
  functions : Bool := true
  standard : Bool := false
  /-- The fields that have been dropped. -/
  dropped : List Octets := []

namespace Lead

/-- Expands words until there is a field, if possible. -/
def fill (found : List Octets) : List Word → Action (List Octets × List Word)
  | [] => return (found, [])
  | w :: rest => do
    if !found.isEmpty then return (found, w :: rest)
    else fill (← fields (substitute execute) w) rest

/-- Passes over the flags of `command`, or finds that it is to be executed itself; `passed` holds
the fields passed over, last one first. -/
def dropCommand (l : Lead) :
    (fuel : Nat) → (passed found : List Octets) → List Word → Action (Lead × Bool)
  | 0, _, _, _ => return (l, false)
  | fuel + 1, passed, found, rest => do
    let (found, rest) ← fill execute found rest
    let itself := ({ l with found := passed.reverse ++ found, rest }, false)
    let without := fun (passed found : List Octets) (rest : List Word) =>
      { l with found, rest, functions := false, dropped := l.dropped ++ passed.reverse }
    match found with
    | [] => return itself
    | word :: more =>
      match word with
      | ['-', '-'] =>
        let (more, rest) ← fill execute more rest
        if more.isEmpty then return ({ l with found := passed.reverse ++ [word], rest }, false)
        else return (without (word :: passed) more rest, true)
      | '-' :: c :: letters =>
        if (c :: letters).all (· == 'p') then
          dropCommand { l with standard := true } fuel (word :: passed) more rest
        else return itself
      | _ => return (without passed found rest, true)

/-- Expands as much as it takes to know what the command is. -/
def settle : (fuel : Nat) → Lead → Action Lead
  | 0, l => return l
  | fuel + 1, l => do
    let (found, rest) ← fill execute l.found l.rest
    let l := { l with found, rest }
    match found with
    | [] => return l
    | name :: more =>
      match meaning (← get) l.functions name with
      | .builtin =>
        let l := { l with
          special := l.special.or (some (isSpecialCommand name))
          declares := takesAssignments name }
        if name = "command".toList then
          let size := more.length + rest.length + 2
          let (l, dropped) ← dropCommand execute l size [name] more rest
          if dropped then settle fuel l else return l
        else return l
      | _ => return l

end Lead

/-- The fields of the words that are left; assignments are kept whole for a command that takes
them. -/
def remaining (declares : Bool) : List Word → Action (List Octets)
  | [] => return []
  | w :: rest => do
    let found ←
      match if declares then assignment? w else none with
      | some (name, value) => do
        let value ← assignedText (substitute execute) value
        pure [name ++ '=' :: value]
      | none => fields (substitute execute) w
    return found ++ (← remaining declares rest)

/-- The assignments in front of a command, shown as they are made. -/
def assignAll (make : Octets → Octets → Action Unit) :
    List (Octets × Word) → Action (List Octets)
  | [] => return []
  | (name, w) :: rest => do
    let value ← assignedText (substitute execute) w
    make name value
    return (name ++ '=' :: value) :: (← assignAll make rest)

def exportVariable (name : Octets) : Action Unit :=
  modify fun s => s.putVariable name { (s.binding? name).getD {} with exported := true }

/-- A variable for one command. -/
def lend (name value : Octets) : Action Unit := do
  hide name
  assign name value
  exportVariable name

/-- What stands in front of a command that is traced. -/
def traceMark : Action Octets := do
  let mark := ((← get).valueOf "PS4".toList).getD []
  match wholeText (substitution (mark.length + 4)) { rest := mark } with
  | .ok (w, _) => text (substitute execute) w
  | .error _ => return mark

/-- Shows a command with the descriptors as they were before its redirections. -/
def traceCommand (descriptors : List (Nat × Nat)) (words : List Octets) : Action Unit := do
  if (← get).isOn .trace then
    let line := (← traceMark execute) ++ State.joined words ++ ['\n']
    modify fun s =>
      { { s with descriptors }.write 2 line with descriptors := s.descriptors }

/-- Puts back the descriptors that have been redirected. -/
def restoreDescriptors (before : List (Nat × Nat)) (os : List Opening) : Action Unit :=
  modify fun s =>
    let changed := os.map Opening.descriptor
    { s with descriptors :=
        before.filter (fun d => changed.contains d.1) ++
          s.descriptors.filter fun d => !changed.contains d.1 }

def perform (tested : Bool) (l : Lead) (words : List Octets) : Action Unit := do
  let s ← get
  match words with
  | [] => setStatus s.substituted
  | name :: arguments =>
    match meaning s l.functions name with
    | .function body => callFunction execute tested body arguments
    | .builtin =>
      asBuiltin (l.special = some true) name (builtin execute tested name arguments)
    | .program => runExternal execute (if l.standard then standardPath else searchPath s) words

def simple (tested : Bool) (line : Nat) (assignments : List (Octets × Word))
    (words : List Word) (redirects : List Redirect) : Action Unit := do
  modify fun s => { s with line, substituted := 0 }
  let l ← Lead.settle execute (words.length + 2) { rest := words }
  let words := l.found ++ (← remaining execute l.declares l.rest)
  let os ← redirects.mapM (opening (substitute execute))
  let before := (← get).descriptors
  let isExec := l.special.isSome && words.head? = some "exec".toList
  let isLent := !words.isEmpty && l.special ≠ some true
  let make := fun (name value : Octets) => do
    if isLent then lend name value
    else
      assign name value
      if isExec && 1 < words.length then exportVariable name
  let body := do
    let shown ← assignAll execute make assignments
    traceCommand execute before (shown ++ l.dropped ++ words)
    perform execute tested l words
  if ← connectAll (substitute execute) os then
    let isFramed := isLent && (l.special.isSome || !assignments.isEmpty)
    let body := if isFramed then withFrame body else body
    if isExec then body else afterwards body (restoreDescriptors before os)
  else
    setStatus 2
    if l.special = some true then throw (.failed 2)

/-! ## Compound commands -/

/-- Opens redirections for a body; says whether that was possible. -/
def redirecting (line : Nat) (redirects : List Redirect) (body : Action Unit) : Action Bool := do
  modify fun s => { s with line }
  let os ← redirects.mapM (opening (substitute execute))
  let before := (← get).descriptors
  if ← connectAll (substitute execute) os then
    afterwards body (restoreDescriptors before os)
    return true
  else
    setStatus 2
    return false

/-- Runs a body within a loop; says whether the loop goes on. -/
def loopStep (body : Action Unit) : Action Bool :=
  tryCatch (do body; return true) fun
    | .broken levels => if levels ≤ 1 then return false else throw (.broken (levels - 1))
    | .continued levels => if levels ≤ 1 then return true else throw (.continued (levels - 1))
    | halt => throw halt

/-- Runs something inside of one more loop. -/
def withinLoop (body : Action Unit) : Action Unit := do
  let loops := (← get).loops
  modify fun s => { s with loops := loops + 1 }
  afterwards body (modify fun s => { s with loops })

def eachField (name : Octets) (body : Action Unit) : List Octets → Action Unit
  | [] => return
  | field :: rest => do
    assign name field
    if ← loopStep body then eachField name body rest

/-- The condition says whether it holds; `last` is the status of the last body. -/
def whileLoop (condition : Action Bool) (body : Action Unit) : (bound last : Nat) → Action Unit
  | 0, last => setStatus last
  | bound + 1, last => do
    let holds : Option Bool ← tryCatch (some <$> condition) fun
      | .broken levels => if levels ≤ 1 then return some false else throw (.broken (levels - 1))
      | .continued levels => if levels ≤ 1 then return none else throw (.continued (levels - 1))
      | halt => throw halt
    match holds with
    | none => whileLoop condition body bound last
    | some false => setStatus last
    | some true =>
      if ← loopStep body then whileLoop condition body bound (← get).status
      else return

def loopBound : Nat := 10000000

/-- Executes the stages one after the other; what one writes the next one reads. The result is the
status of the last one. -/
def pipelineFrom (tested : Bool) : (input : Option Octets) → List Command → Action Nat
  | _, [] => return 0
  | input, c :: rest => do
    let body := do
      input.forM fun text => modify (·.openChannel 0 (.input text))
      execute tested c
    match rest with
    | [] => childStatus (← inSubshell execute body)
    | _ =>
      let (written, status) ← collecting execute body
      let _ ← childStatus status
      pipelineFrom tested (some written) rest

/-- The jobs with a new one; it takes the slot of the first that has been waited for. -/
def withJob (s : State) (status : Nat) : State :=
  let started := s.started + 1
  let slots := (s.jobs.filter Job.waited).map Job.slot
  let slot := slots.min?.getD ((s.jobs.map Job.slot).foldl max 0 + 1)
  let job := { slot, process := State.processNumber + started, status }
  { s with started, jobs := job :: s.jobs.filter (·.slot != slot) }

/-- Notes a job that has run in the background. -/
def noteJob (status : Nat) : Action Unit :=
  modify fun s => { withJob s status with status := 0 }

/-- The body of the first arm of which a pattern fits. -/
def armFor (subject : Octets) : List (List Word × Option Command) → Action (Option Command)
  | [] => return none
  | (patterns, body) :: rest => do
    if ← fitsAny patterns then return body else armFor subject rest
where
  fitsAny : List Word → Action Bool
    | [] => return false
    | w :: ws => do
      let p ← pattern (substitute execute) w
      if fits p.atoms subject then return true else fitsAny ws

/-- Acts on signals, and ends the shell if a command has failed that is not tested. -/
def settled (tested : Bool) : Action Unit := do
  meetDoom
  actOnSignals execute Signal.count
  let s ← get
  if s.endsOn tested then throw (.exited s.status)

def withInput (c : Channel) (body : Action Unit) : Action Unit := do
  modify (·.openChannel 0 c)
  body

/-- Executes a command whose parts are executed as given. -/
def step (tested : Bool) : Command → Action Unit
  | .simple line assignments words redirects => do
    simple execute tested line assignments words redirects
    settled execute tested
  | .redirected line redirects body => do
    unless ← redirecting execute line redirects (execute tested body) do settled execute tested
  | .subshell line redirects body => do
    modify fun s => { s with line }
    let os ← redirects.mapM (opening (substitute execute))
    let status ← inSubshell execute do
      os.forM (connect (substitute execute) false)
      execute tested body
    setStatus (← childStatus status)
    settled execute tested
  | .background line redirects body => do
    modify fun s => { s with line }
    let os ← redirects.mapM (opening (substitute execute))
    let status ← inSubshell execute <| withInput .nowhere do
      os.forM (connect (substitute execute) false)
      execute false body
    noteJob (← childStatus status)
    settled execute tested
  | .pipeline isBackground stages => do
    if isBackground then
      noteJob (← pipelineFrom execute false (some []) stages)
    else setStatus (← pipelineFrom execute tested none stages)
    settled execute tested
  | .sequence commands => commands.forM (execute tested)
  | .both first second => do
    execute true first
    if (← get).status = 0 then execute tested second
  | .either first second => do
    execute true first
    if (← get).status ≠ 0 then execute tested second
  | .negated body => do
    execute true body
    setStatus (if (← get).status = 0 then 1 else 0)
  | .loop inverted condition body => do
    let holds := do
      execute true condition
      return ((← get).status = 0) != inverted
    withinLoop (whileLoop holds (execute tested body) loopBound 0)
  | .forEach line name words body => do
    modify fun s => { s with line }
    let found ← allFields (substitute execute) words
    if found.isEmpty then setStatus 0
    else withinLoop (eachField name (execute tested body) found)
  | .ifElse condition first second => do
    execute true condition
    if (← get).status = 0 then execute tested first
    else
      match second with
      | some second => execute tested second
      | none => setStatus 0
  | .select line subject arms => do
    modify fun s => { s with line }
    match ← armFor execute (← text (substitute execute) subject) arms with
    | some body => execute tested body
    | none => setStatus 0
  | .define name body => do
    modify fun s => { s with functions := s.functions.set (String.ofList name) body, status := 0 }

end

/-- Executes a command; the fuel bounds how deep commands lie in each other. A shell that goes
deeper runs out of memory and ends at once. -/
def run : (fuel : Nat) → (tested : Bool) → Command → Action Unit
  | 0, _, _ => throw (.gone (-11))
  | fuel + 1, tested, c => do
    unless (← get).isOn .noExecution do step (run fuel) tested c

def maxDepth : Nat := 100000

/-- Runs a shell from its arguments to its end; the status is negative if a signal has ended it. -/
def runShell : Action Int :=
  shell (run maxDepth)

end TriplePass.Shell
