import TriplePass.Failure
import TriplePass.Text.Blank
import TriplePass.Text.Digit
import TriplePass.Text.Search

/-! # Lines of the linter

The linter writes `file(line:column)[kind]: message`. The file is the shortest text that leaves a
line of this shape; the message starts behind all blanks and runs to the end of the line. Numbers
may have at most 4300 digits.
-/
namespace TriplePass.Lint

structure Line where
  file : List Char
  line : List Char
  column : List Char
  kind : List Char
  message : List Char
  deriving DecidableEq, Repr

namespace Line

/-- A run of one or more characters of a class, a fixed text behind it, and the rest. -/
def runBefore? (p : Char → Bool) (mark s : List Char) : Option (List Char × List Char) :=
  if (s.takeWhile p).isEmpty then none
  else (Text.dropPrefix? mark (s.dropWhile p)).map fun rest => (s.takeWhile p, rest)

def isLowercase (c : Char) : Bool :=
  'a' ≤ c && c ≤ 'z'

/-- A message ends its line; one line feed may follow it. -/
def message? (s : List Char) : Option (List Char) :=
  match s.dropWhile (· != '\n') with
  | [] | ['\n'] => some (s.takeWhile (· != '\n'))
  | _ => none

/-- What follows the file of a line; the file itself is left empty. -/
def behindFile? (s : List Char) : Option Line := do
  let s ← Text.dropPrefix? ['('] s
  let (line, s) ← runBefore? Text.isDigit [':'] s
  let (column, s) ← runBefore? Text.isDigit [')', '['] s
  let (kind, s) ← runBefore? isLowercase [']', ':'] s
  let message ← message? (s.dropWhile Text.isBlank)
  return ⟨[], line, column, kind, message⟩

/-- Tries every end of the file, shortest first; `read` is what the file has so far, last
character first. -/
def from? (read : List Char) (s : List Char) : Option Line :=
  match behindFile? s with
  | some line => some { line with file := read.reverse }
  | none =>
    match s with
    | [] => none
    | c :: cs => if c = '\n' then none else from? (c :: read) cs

def parse? : List Char → Option Line
  | [] => none
  | c :: cs => if c = '\n' then none else from? [c] cs

/-- The line without its line feed, as the linter writes it. -/
def format (l : Line) : List Char :=
  l.file ++ '(' :: (l.line ++ ':' :: (l.column ++ ')' :: '[' :: (l.kind ++ ']' :: ':' :: ' ' ::
    l.message)))

def severity (kind : List Char) : Severity :=
  match String.ofList kind with
  | "warn" | "warning" => .warning
  | "error" => .error
  | _ => .notice

def maxDigits : Nat := 4300

def number (digits : List Char) : Except Failure Int :=
  if maxDigits < digits.length then .error (.longNumber digits.length)
  else .ok (Text.numeral digits)

def toolName : String := "dscanner"

def diagnostic (l : Line) : Except Failure Diagnostic := do
  let line ← number l.line
  let column ← number l.column
  return {
    file := String.ofList l.file
    line := some line
    column := some column
    severity := severity l.kind
    message := String.ofList l.message
    tool := toolName
  }

end Line

/-- The diagnostic that a line of the linter holds, if it holds one. -/
def diagnosticOf (line : List Char) : Except Failure (Option Diagnostic) :=
  match Line.parse? line with
  | none => .ok none
  | some l => some <$> l.diagnostic

end TriplePass.Lint
