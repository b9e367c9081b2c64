import TriplePass.Shell.Declare

/-! # Positional arguments and options

The arguments of a script or function can be replaced, shifted, and searched for options one by one.
The options of the shell itself are set along with the arguments.
-/
namespace TriplePass.Shell

def setArguments (arguments : List Octets) : Action Unit :=
  modify fun s => { s with arguments, optionIndex := 1, optionOffset := none }

def shift (words : List Octets) : Action Unit := do
  let n ←
    match words with
    | word :: _ => numberOf word
    | [] => pure 1
  let arguments := (← get).arguments
  if arguments.length < n then fail "can't shift that many".toList
  else
    setArguments (arguments.drop n)
    setStatus 0

/-! ## Options of the shell -/

def settingOf? (letter : Char) : Option Setting :=
  (settings.find? (·.2.1 == some letter)).map Prod.fst

/-- Switches an option by its letter. There is no terminal that jobs could be controlled from, and
of the two ways to edit lines only one can be on. -/
def switchLetter (on : Bool) (letter : Char) : Action Unit :=
  match settingOf? letter with
  | some .monitor => if on then warn "can't access tty; job control turned off".toList else pure ()
  | some .viMode => modify fun s => (s.switch .viMode on).switch .emacsMode
      (s.isOn .emacsMode && !on)
  | some .emacsMode => modify fun s => (s.switch .emacsMode on).switch .viMode
      (s.isOn .viMode && !on)
  | some o => modify (·.switch o on)
  | none => fail ("Illegal option -".toList ++ [letter])

def paddedName (name : String) : String :=
  name ++ String.ofList (List.replicate (16 - name.length) ' ')

/-- Lists the options for a reader, or as commands that set them. -/
def listSettings (asCommands : Bool) : Action Unit := do
  let s ← get
  let line := fun (o : Setting × Option Char × String) =>
    let on := s.isOn o.1
    if asCommands then "set " ++ (if on then "-o " else "+o ") ++ o.2.2 ++ "\n"
    else paddedName o.2.2 ++ (if on then "on" else "off") ++ "\n"
  let title := if asCommands then "" else "Current option settings\n"
  say 1 (title ++ String.join (settings.map line)).toList

def switchNamed (on : Bool) (name : Option Octets) : Action Unit := do
  match name with
  | none => listSettings !on
  | some name =>
    match settings.find? (·.2.2.toList == name) with
    | some (o, _) => modify (·.switch o on)
    | none => fail ("Illegal option -o ".toList ++ name)

/-- The letters of one word; each one that asks for a name takes the next word. -/
def switchLetters (on : Bool) : Octets → List Octets → Action (List Octets)
  | [], words => return words
  | 'o' :: more, words => do
    switchNamed on words.head?
    switchLetters on more words.tail
  | c :: more, words => do
    switchLetter on c
    switchLetters on more words

/-- Sets options as far as the words give them. The result is what follows, and whether it stands
for arguments even if it is empty. -/
def switchAll : (fuel : Nat) → List Octets → Action (List Octets × Bool)
  | 0, words => return (words, false)
  | fuel + 1, words => do
    match words with
    | ['-', '-'] :: rest => return (rest, true)
    | ['-'] :: rest =>
      modify fun s => (s.switch .trace false).switch .verbose false
      return (rest, false)
    | ('-' :: more) :: rest => switchAll fuel (← switchLetters true more rest)
    | ('+' :: more) :: rest => switchAll fuel (← switchLetters false more rest)
    | _ => return (words, false)

def setWords (words : List Octets) : Action Unit := do
  if words.isEmpty then listVariables [] fun v => v.value.isSome
  else
    let (arguments, given) ← switchAll (words.length + 1) words
    if given || !arguments.isEmpty then setArguments arguments
  setStatus 0

/-! ## Options of a script -/

/-- What looking for the next option finds. -/
structure Found where
  letter : Char
  argument : Option Octets
  index : Nat
  offset : Option Nat
  report : Option Octets := none
  isLast : Bool := false

/-- Looks for the next option among the words; `index` counts from 1 and `offset` is how much of
the word before it has been read. -/
def nextOption (allowed : Octets) (words : List Octets) (index : Nat) (offset : Option Nat)
    (argument : Option Octets) : Found :=
  let silent := allowed.head? = some ':'
  let current :=
    match offset with
    | some n => if index ≤ 1 then [] else ((words[index - 2]?).getD []).drop n
    | none => []
  let ended := fun (index : Nat) =>
    { letter := '?', argument, index, offset := none, isLast := true : Found }
  let start :=
    if !current.isEmpty then some (current, index)
    else
      match words[index - 1]? with
      | some ('-' :: c :: more) => some (c :: more, index + 1)
      | _ => none
  match start with
  | none => ended index
  | some ([], index) => ended index
  | some (c :: rest, index) =>
    let offset := some (((words[index - 2]?).getD []).length - rest.length)
    if current.isEmpty && c = '-' && rest.isEmpty then ended index
    else
      match takesArgument? allowed c with
      | none =>
        if silent then { letter := '?', argument := some [c], index, offset }
        else
          { letter := '?', argument := none, index, offset
            report := some ("Illegal option -".toList ++ [c]) }
      | some false => { letter := c, argument := some [], index, offset }
      | some true =>
        if !rest.isEmpty then { letter := c, argument := some rest, index, offset := none }
        else
          match words[index - 1]? with
          | some word => { letter := c, argument := some word, index := index + 1, offset := none }
          | none =>
            if silent then { letter := ':', argument := some [c], index, offset := none }
            else
              { letter := '?', argument := none, index, offset := none
                report := some ("No arg for -".toList ++ c :: " option".toList) }

def getOptions (words : List Octets) : Action Unit := do
  match words with
  | allowed :: name :: given => do
    let s ← get
    let words := if given.isEmpty then s.arguments else given
    let (index, offset) :=
      if words.length + 1 < s.optionIndex then (1, none) else (s.optionIndex, s.optionOffset)
    let outside := s.valueOf "OPTARG".toList
    let found := nextOption allowed words index offset outside
    found.report.forM fun text => say 2 (text ++ ['\n'])
    unless found.isLast do
      match found.argument with
      | some argument => assign "OPTARG".toList argument
      | none => unsetVariable "OPTARG".toList
    assign "OPTIND".toList (Octets.ofNat found.index)
    checkName name
    assign name [found.letter]
    modify fun s => { s with
      optionIndex := found.index
      optionOffset := found.offset
      status := if found.isLast then 1 else 0 }
  | _ => fail "Usage: getopts optstring var [arg...]".toList

end TriplePass.Shell
