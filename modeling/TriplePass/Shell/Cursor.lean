import TriplePass.Dictionary
import TriplePass.Shell.Syntax

/-! # Reading a script

A cursor stands in the text of a script and knows the number of its line. One token may be put
back. A here-document begins behind the line on which its delimiter stands, when several were
announced one behind the other. So commands that hold documents are read twice: the documents are
known when they are read again.
-/
namespace TriplePass.Shell

/-- Where and why a script cannot be read on. -/
structure SyntaxFault where
  line : Nat
  text : Octets
  deriving DecidableEq, Repr

inductive Token where
  | endOfInput
  | newline
  | redirect (descriptor : Nat) (operator : String)
  | word (parts : Word)
  | operator (text : String)
  | keyword (text : String)

namespace Token

/-- The token as it is called in a message. -/
def name : Token → String
  | .endOfInput => "end of file"
  | .newline => "newline"
  | .redirect .. => "redirection"
  | .word _ => "word"
  | .operator text | .keyword text => "\"" ++ text ++ "\""

def isOperator (text : String) : Token → Bool
  | .operator t => t == text
  | _ => false

def isKeyword (text : String) : Token → Bool
  | .keyword t => t == text
  | _ => false

/-- The tokens that end a list. -/
def endsList : Token → Bool
  | .endOfInput => true
  | .operator text => [")", ";;"].contains text
  | .keyword text =>
    ["do", "done", "elif", "else", "esac", "fi", "then", "\x7d"].contains text
  | _ => false

end Token

/-- What ends a here-document: a line of its own. Tabs at the start of lines may have to be left
out; and if the delimiter is quoted, so is the whole document. -/
structure Delimiter where
  text : Octets
  strip : Bool
  quoted : Bool
  deriving DecidableEq, Repr

structure Cursor where
  rest : Octets
  line : Nat := 1
  pushed : Option Token := none
  aliases : Dictionary Octets := []
  /-- The aliases whose text is being read, each with the length of what follows that text. -/
  active : List (String × Nat) := []
  /-- The lengths of what follows the aliases that end in a blank. -/
  blankEnds : List Nat := []
  /-- How many documents have been announced. -/
  announced : Nat := 0
  /-- The documents that begin at the next line, by their numbers. -/
  pending : List (Nat × Delimiter) := []
  documents : List (Nat × Word) := []
  /-- The documents from the first reading. -/
  known : List (Nat × Word) := []

abbrev Parse := StateT Cursor (Except SyntaxFault)

namespace Cursor

def pass (k : Cursor) (c : Char) (rest : Octets) : Cursor :=
  { k with rest, line := if c = '\n' then k.line + 1 else k.line }

def passAll (k : Cursor) (text rest : Octets) : Cursor :=
  { k with rest, line := k.line + text.count '\n' }

/-- Passes over backslashes that stand before the end of a line, with that end. -/
def joinLines (k : Cursor) : Cursor :=
  go k k.rest
where
  go (k : Cursor) : Octets → Cursor
    | '\\' :: '\n' :: rest => go (k.pass '\n' rest) rest
    | _ => k

end Cursor

def fault {α : Type} (text : String) : Parse α := do
  throw ⟨(← get).line, text.toList⟩

def unexpected {α : Type} (t : Token) : Parse α :=
  fault (t.name ++ " unexpected")

def unexpectedFor {α : Type} (t expected : Token) : Parse α :=
  fault (t.name ++ " unexpected (expecting " ++ expected.name ++ ")")

def pushBack (t : Token) : Parse Unit :=
  modify fun k => { k with pushed := some t }

/-- The next character, not passed over. -/
def peek : Parse (Option Char) := do
  modify Cursor.joinLines
  return (← get).rest.head?

def advance : Parse Unit := do
  match (← get).rest with
  | c :: rest => modify (·.pass c rest)
  | [] => return

/-- Leaves out a character; the end of a line does not count. -/
def dropOne : Parse Unit :=
  modify fun k => { k with rest := k.rest.tail }

/-- Passes over the text up to the first character of another class. -/
def takeWhile (p : Char → Bool) : Parse Octets := do
  let k ← get
  let text := k.rest.takeWhile p
  set (k.passAll text (k.rest.drop text.length))
  return text

/-- Passes over a character if it is the next one. -/
def accept (c : Char) : Parse Bool := do
  if (← peek) = some c then
    advance
    return true
  else return false

/-- The characters of a class from here on; continued lines count as one. -/
def joinedWhile (p : Char → Bool) : (fuel : Nat) → Parse Octets
  | 0 => return []
  | fuel + 1 => do
    match ← peek with
    | some c =>
      if p c then
        advance
        return c :: (← joinedWhile p fuel)
      else return []
    | none => return []

/-! ## Here-documents -/

/-- The text of a document that begins at the next line; it is not known in the first reading. -/
def announce (d : Delimiter) : Parse Word := do
  let k ← get
  set { k with
    announced := k.announced + 1
    pending := k.pending ++ [(k.announced, d)] }
  return (k.known.lookup k.announced).getD []

/-- Runs a parser with documents of its own. -/
def apart {α : Type} (p : Parse α) : Parse α := do
  let pending := (← get).pending
  modify fun k => { k with pending := [] }
  let a ← p
  modify fun k => { k with pending }
  return a

/-- Runs a parser again if it has come across documents, which are known then. -/
def reread {α : Type} (p : Parse α) : Parse α := do
  let start ← get
  let a ← p
  let found := (← get).documents
  if found.length = start.documents.length then return a
  else
    set { start with known := found }
    p

/-- Whether the line at the cursor is the delimiter, which is passed over then. -/
def atDelimiter (d : Delimiter) : Parse Bool := do
  let k ← get
  let rest := if d.strip then k.rest.dropWhile (· == '\t') else k.rest
  let behind := rest.drop d.text.length
  if d.text.isPrefixOf rest && behind.head?.all (· == '\n') then
    set { k.passAll d.text behind.tail with line := k.line + 1 }
    return true
  else
    set { k with rest }
    return false

/-- The line at the cursor, with its end. -/
def wholeLine : Parse Octets := do
  let text ← takeWhile (· != '\n')
  match (← get).rest with
  | c :: rest =>
    modify (·.pass c rest)
    return text ++ [c]
  | [] => return text

/-- The lines of a quoted document up to its delimiter. -/
def quotedLines (d : Delimiter) : (fuel : Nat) → Parse Octets
  | 0 => return []
  | fuel + 1 => do
    if ← atDelimiter d then return []
    else
      let text ← wholeLine
      if text.isEmpty then return [] else return text ++ (← quotedLines d fuel)

/-- The text up to the apostrophe that ends it, which is passed over. There is none if the script
or the document ends first. -/
def apostrophe (document : Option Delimiter) : (fuel : Nat) → Parse (Option Octets)
  | 0 => return none
  | fuel + 1 => do
    let text ← takeWhile fun c => c != '\'' && (c != '\n' || document.isNone)
    match (← get).rest with
    | [] => return none
    | c :: rest =>
      modify (·.pass c rest)
      if c = '\'' then return some text
      else
        match document with
        | none => return none
        | some d =>
          if ← atDelimiter d then return none
          else return (← apostrophe document fuel).map (text ++ c :: ·)

end TriplePass.Shell
