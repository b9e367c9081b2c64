import TriplePass.Shell.Flags

/-! # Declaring variables

Variables are exported, fixed, made local to a function, listed and unset. A variable that is
declared without a value keeps the one it has; a variable that is fixed can no longer be changed.
-/
namespace TriplePass.Shell

/-- What declares a variable. -/
inductive Mark where
  | exported
  | fixed
  deriving DecidableEq, Repr

namespace Mark

def isOn : Mark → Variable → Bool
  | .exported, v => v.exported
  | .fixed, v => v.fixed

def put : Mark → Variable → Variable
  | .exported, v => { v with exported := true }
  | .fixed, v => { v with fixed := true }

end Mark

/-- A word as a name and the value that it gives, if there is one. -/
def nameAndValue (word : Octets) : Octets × Option Octets :=
  let name := word.takeWhile (· != '=')
  match word.drop name.length with
  | _ :: value => (name, some value)
  | [] => (name, none)

def checkName (name : Octets) : Action Unit :=
  unless isName name do fail (name ++ ": bad variable name".toList)

/-- A variable as it is listed: its name, and its value in quotes. -/
def listing (name : String) (v : Variable) : Octets :=
  match v.value with
  | some value => name.toList ++ '=' :: quotedText value
  | none => name.toList

/-- Lists the chosen variables in the order of their names. -/
def listVariables (intro : Octets) (chosen : Variable → Bool) : Action Unit := do
  let found := (← get).bindings.filter (chosen ·.2)
  let ordered := found.mergeSort fun a b => Octets.isUpTo a.1.toList b.1.toList
  say 1 (ordered.flatMap fun (name, v) => intro ++ listing name v ++ ['\n'])

def declareWord (m : Mark) (word : Octets) : Action Unit := do
  match nameAndValue word with
  | (name, some value) =>
    checkName name
    assign name value
    modify fun s => s.putVariable name (m.put ((s.binding? name).getD {}))
  | (name, none) =>
    checkName name
    modify fun s => s.putVariable name (m.put ((s.binding? name).getD {}))

def declare (m : Mark) (command : Octets) (words : List Octets) : Action Unit := do
  let (found, words) ← flags "p" words
  if words.isEmpty || has found 'p' then listVariables (command ++ [' ']) m.isOn
  else words.forM (declareWord m)
  setStatus 0

def unsetVariable (name : Octets) : Action Unit := do
  checkName name
  let s ← get
  if (s.binding? name).any Variable.fixed then fail (name ++ ": is read only".toList)
  else set (s.dropVariable name)

def unset (words : List Octets) : Action Unit := do
  let (found, words) ← flags "vf" words
  if found.getLast?.any (·.letter == 'f') then
    modify fun s => { s with
      functions := s.functions.filter fun f => !words.contains f.1.toList }
  else words.forM unsetVariable
  setStatus 0

/-! ## Variables of a function -/

/-- Notes what a variable is outside, unless that has been noted. -/
def Frame.keep (f : Frame) (name : String) (v : Option Variable) : Frame :=
  if f.bindings.any (·.1 == name) then f else { f with bindings := (name, v) :: f.bindings }

/-- Lets the innermost command have a variable of its own. -/
def hide (name : Octets) : Action Unit :=
  modify fun s =>
    match s.hidden with
    | f :: rest => { s with hidden := f.keep (String.ofList name) (s.binding? name) :: rest }
    | [] => s

def hideSettings : Action Unit :=
  modify fun s =>
    match s.hidden with
    | f :: rest => { s with hidden := { f with settings := f.settings.or s.settings } :: rest }
    | [] => s

def makeLocal (word : Octets) : Action Unit := do
  if word = ['-'] then hideSettings
  else
    let (name, value) := nameAndValue word
    checkName name
    hide name
    value.forM (assign name)

def localWords (words : List Octets) : Action Unit := do
  if (← get).hidden.isEmpty then fail "not in a function".toList
  else
    words.forM makeLocal
    setStatus 0

def State.putBack (s : State) (f : Frame) : State :=
  let s := { s with settings := f.settings.getD s.settings }
  f.bindings.foldl (fun s (name, v) =>
    match v with
    | some v => { s with bindings := s.bindings.set name v }
    | none => s.dropVariable name.toList) s

/-- Ends the innermost command that may have variables of its own. -/
def leaveFrame : Action Unit :=
  modify fun s =>
    match s.hidden with
    | f :: rest => { s.putBack f with hidden := rest }
    | [] => s

/-- Runs something and then something else, which it does also if the former stops. -/
def afterwards {α : Type} (body : Action α) (cleanup : Action Unit) : Action α := do
  let result ← tryCatch body fun halt => do
    cleanup
    throw halt
  cleanup
  return result

/-- Runs something that may have variables of its own. -/
def withFrame (body : Action Unit) : Action Unit := do
  modify fun s => { s with hidden := {} :: s.hidden }
  afterwards body leaveFrame

end TriplePass.Shell
