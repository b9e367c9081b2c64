import TriplePass.Shell.Arithmetic
import TriplePass.Shell.Fields
import TriplePass.Shell.FileNames
import TriplePass.Shell.State
import TriplePass.Shell.Trim

/-! # Expansion of words

Words are expanded from left to right, and an expansion may change the state of the shell. Where
fields are asked for, what is not quoted is split and stands for file names, and the arguments stay
apart; elsewhere a word becomes a single text. How a command in a word is executed comes as a
parameter.
-/
namespace TriplePass.Shell

/-- What a word is expanded for. -/
structure Manner where
  fields : Bool := false
  /-- The value of a variable, in which home directories may follow every colon. -/
  value : Bool := false

/-- The home directory of a user, or of the user of the shell if there is no name. -/
def homeOf (s : State) (user : Octets) : Option Octets :=
  if user.isEmpty then (s.valueOf "HOME".toList).filter (!·.isEmpty)
  else if user = "root".toList then some "/root".toList
  else none

/-- Text that is not quoted; in the operand of a parameter it is split like a value. -/
def plainPiece (loose : Bool) (text : Octets) : Piece :=
  if loose then .value text else .literal false text

/-- The pieces of a text with home directories in the place of tildes. A tilde counts at the start
of a word and, if the word is the value of a variable, behind a colon; the user name must be
complete within the text, which it is at the end of the word. -/
def withHomes (home : Octets → Option Octets) (m : Manner) (loose last : Bool) :
    (fuel : Nat) → (start : Bool) → Octets → List Piece
  | 0, _, s => [plainPiece loose s]
  | fuel + 1, start, s =>
    let segment := if m.value then s.takeWhile (· != ':') else s
    let behind := s.drop segment.length
    let user := segment.tail.takeWhile (· != '/')
    let isComplete := last || !behind.isEmpty || user.length + 1 < segment.length
    let pieces :=
      match if start && segment.head? = some '~' && isComplete then home user else none with
      | some dir => [.literal true dir, plainPiece loose (segment.drop (user.length + 1))]
      | none => [plainPiece loose segment]
    match behind with
    | [] => pieces
    | c :: more =>
      pieces ++ plainPiece loose [c] :: withHomes home m loose last fuel true more

/-- The pieces of a text that an expansion has given. -/
def resultPieces (quoted : Bool) (text : Octets) : List Piece :=
  [if quoted then .literal true text else .value text]

def isArguments (name : Octets) : Bool :=
  name == ['@'] || name == ['*']

/-- The pieces of several arguments that are quoted, each a field of its own. -/
def argumentPieces (arguments : List Octets) : List Piece :=
  if arguments.isEmpty then []
  else [.cut].intercalate (arguments.map fun a => [.mark, .literal true a]) ++ [.seam]

/-- The pieces of the value of a parameter. -/
def valuePieces (s : State) (m : Manner) (quoted : Bool) (name : Octets) : List Piece :=
  if m.fields && quoted && name == ['@'] then argumentPieces s.arguments
  else if m.fields && !quoted && isArguments name then
    resultPieces quoted (['\x00'].intercalate s.arguments)
  else resultPieces quoted ((s.parameter name).getD [])

/-- The pieces of the value of a parameter that is trimmed. -/
def trimmedPieces (s : State) (m : Manner) (quoted : Bool) (name : Octets) (side : Side)
    (longest : Bool) (pattern : Marked) : List Piece :=
  let together := trimmedArguments quoted side longest pattern s.arguments
  if m.fields && quoted && name == ['@'] then
    if s.arguments.isEmpty then [] else argumentPieces (together.splitOnP (· == '\x00'))
  else if m.fields && !quoted && isArguments name then resultPieces quoted together
  else resultPieces quoted (trimmed side longest pattern.atoms ((s.parameter name).getD []))

/-- The value of a parameter that may have to be set. -/
def required (name : Octets) : Action Octets := do
  let s ← get
  match s.parameter name with
  | some value => return value
  | none => if s.isOn .noUnset then fail (name ++ ": parameter not set".toList) else return []

/-- Whether a parameter counts as set. -/
def isThere (s : State) (unlessEmpty : Bool) (name : Octets) : Bool :=
  match s.parameter name with
  | some value => !(unlessEmpty && value.isEmpty)
  | none => false

def assignParameter (name value : Octets) : Action Unit :=
  if isName name then assign name value else fail (name ++ ": bad variable name".toList)

/-- The value of an arithmetic expression. -/
def evaluate (text : Octets) : Action Int := do
  let refuse := fun (f : Arithmetic.Fault) =>
    fail ("arithmetic expression: ".toList ++ f.message.toList ++ ": \"".toList ++ text ++ ['"'])
  let value := fun (name : Octets) => do
    match (← get).valueOf name with
    | none => return 0
    | some text =>
      match Arithmetic.wholeNumber? .told text with
      | some n => return n
      | none => fail ("Illegal number: ".toList ++ text)
  (Arithmetic.read text).eval refuse value fun name n => assign name (Octets.ofInt n)

/-- What a command has written, as it is put into a word. -/
def substituted (written : Octets) : Octets :=
  ((written.filter (· != '\x00')).reverse.dropWhile (· == '\n')).reverse

section
variable (execute : Option Command → Action Octets)

/-- Whether what comes behind a part is left out. -/
def isLast : Part → Bool
  | .parameter _ _ (.ending _) => true
  | _ => false

mutual

def pieces (m : Manner) (loose start : Bool) : List Part → Action (List Piece)
  | [] => return []
  | p :: rest => do
    let here ← piece m loose start rest.isEmpty p
    if isLast p then return here else return here ++ (← pieces m loose false rest)

def piece (m : Manner) (loose start last : Bool) : Part → Action (List Piece)
  | .literal true [] => return [.mark]
  | .literal true text => return [.literal true text]
  | .literal false text => do
    let s ← get
    return withHomes (homeOf s) m loose last (text.length + 1) start text
  | .parameter quoted name modifier => modified m quoted name modifier
  | .arithmetic quoted expression => do
    let n ← evaluate (textOf (← pieces {} false false expression))
    return resultPieces quoted (Octets.ofInt n)
  | .output quoted body => do
    let written ← execute body
    return resultPieces quoted (substituted written)

/-- The pieces of a parameter with a modifier. -/
def modified (m : Manner) (quoted : Bool) (name : Octets) : Modifier → Action (List Piece)
  | .plain => do
    let _ ← required name
    return valuePieces (← get) m quoted name
  | .length => do
    let value ← required name
    return resultPieces quoted (Octets.ofNat value.length)
  | .trim side longest pattern => do
    let _ ← required name
    let s ← get
    if (s.parameter name).isNone then return resultPieces quoted []
    else
      let pattern := markedOf (← pieces {} false true pattern)
      return trimmedPieces s m quoted name side longest pattern
  | .fallback evenIfEmpty word => do
    let s ← get
    if isThere s evenIfEmpty name then return valuePieces s m quoted name
    else pieces m (!quoted) (!quoted) word
  | .assign evenIfEmpty word => do
    let s ← get
    if isThere s evenIfEmpty name then return valuePieces s m quoted name
    else
      let value := textOf (← pieces {} false (!quoted) word)
      assignParameter name value
      return resultPieces quoted value
  | .demand evenIfEmpty word => do
    let s ← get
    if isThere s evenIfEmpty name then return valuePieces s m quoted name
    else if word.isEmpty then
      let extent := if evenIfEmpty then " or null" else ""
      fail (name ++ ": parameter not set".toList ++ extent.toList)
    else
      let text := textOf (← pieces {} false (!quoted) word)
      fail (name ++ ": ".toList ++ text)
  | .replacement unlessEmpty word => do
    if isThere (← get) unlessEmpty name then pieces m (!quoted) (!quoted) word
    else return []
  | .ending word => do
    let _ ← required name
    let s ← get
    return valuePieces s m quoted name ++ (← pieces m false false word)
  | .unknown => fail "Bad substitution".toList

end

/-- The fields of a word, with file names in the place of patterns. -/
def fields (w : Word) : Action (List Octets) := do
  let ps ← pieces execute { fields := true } false true w
  let s ← get
  let found := fieldsOf s.separators ps
  if s.isOn .noPatterns then return found.map Marked.text
  else return found.flatMap (fileNames s.tree s.workingDir)

def allFields : List Word → Action (List Octets)
  | [] => return []
  | w :: rest => do
    let found ← fields execute w
    return found ++ (← allFields rest)

/-- A word as a single text. -/
def text (w : Word) : Action Octets :=
  textOf <$> pieces execute {} false true w

/-- The text of a word that is the value of a variable. -/
def assignedText (w : Word) : Action Octets :=
  textOf <$> pieces execute { value := true } false true w

def pattern (w : Word) : Action Marked :=
  markedOf <$> pieces execute {} false true w

end

end TriplePass.Shell
