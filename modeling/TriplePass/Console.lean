import TriplePass.Settings.Basic
import TriplePass.Text.Blank
import TriplePass.Text.Identifier
import TriplePass.Text.Width

/-! # The console

Messages of the harness go to the standard error stream, one message a line. Five control
characters are dropped, tabs go to the next multiple of eight columns, and on a terminal every
stretch of one style is coloured, line by line. Debug messages show their `key=value` pairs.
Output of the tools is passed on as it is.
-/
namespace TriplePass

inductive Style where
  | info
  | warning
  | failure
  | label
  | gap
  | key
  | value
  | command
  deriving DecidableEq, Repr

def Style.codes : Style → String
  | .info => "36"
  | .warning => "33"
  | .failure => "31"
  | .label => "1;36"
  | .gap => "1;2;36"
  | .key => "1;35"
  | .value => "1;32"
  | .command => "1;34"

structure Console where
  useEmoji : Bool := false
  useColor : Bool := true
  debug : Bool := false
  terminal : Bool := false
  deriving DecidableEq, Repr

namespace Console

/-- A stretch of text in one style. -/
abbrev Piece := Style × List Char

/-- A character on its way to the screen; `opens` says that a stretch starts with it. -/
structure Glyph where
  style : Style
  opens : Bool
  char : Char
  deriving DecidableEq, Repr

def isDropped (c : Char) : Bool :=
  c == '\x07' || c == '\x08' || c == '\x0b' || c == '\x0c' || c == '\r'

def opening : List Glyph → List Glyph
  | [] => []
  | g :: rest => { g with opens := true } :: rest

def glyphs (p : Piece) : List Glyph :=
  opening ((p.2.filter (!isDropped ·)).map (⟨p.1, false, ·⟩))

def tabWidth : Nat := 8

/-- The first tab stop that is not before a column. -/
def tabStop (column : Nat) : Nat :=
  (column + (tabWidth - 1)) / tabWidth * tabWidth

/-- Fills every tab up with spaces, of which the first counts as a part of the text in front of
it. `column` is the last tab stop, and `seen` is what has come since, last character first. -/
def expandTabs : (column : Nat) → (seen : List Char) → List Glyph → List Glyph
  | _, _, [] => []
  | column, seen, g :: rest =>
    if g.char = '\n' then g :: expandTabs 0 [] rest
    else if g.char = '\t' then
      let reached := column + Text.width (' ' :: seen).reverse
      let fill := List.replicate (tabStop reached - reached) ⟨g.style, false, ' '⟩
      { g with char := ' ' } :: (fill ++ opening (expandTabs (tabStop reached) [] rest))
    else g :: expandTabs column (g.char :: seen) rest

def openStyle (s : Style) : List Char :=
  '\x1b' :: '[' :: s.codes.toList ++ ['m']

def closeStyle (isOpen : Bool) : List Char :=
  if isOpen then "\x1b[0m".toList else []

/-- The text with the codes of its styles, every stretch on its own. -/
def coloured : (isOpen : Bool) → List Glyph → List Char
  | isOpen, [] => closeStyle isOpen
  | isOpen, g :: rest =>
    if g.char = '\n' then closeStyle isOpen ++ g.char :: coloured false rest
    else if isOpen && !g.opens then g.char :: coloured true rest
    else closeStyle isOpen ++ openStyle g.style ++ g.char :: coloured true rest

def print (k : Console) (pieces : List Piece) : String :=
  let text := expandTabs 0 [] (pieces.flatMap glyphs)
  String.ofList
    ((if k.terminal && k.useColor then coloured false text else text.map (·.char)) ++ ['\n'])

def say (k : Console) (style : Style) (sign message : String) : String :=
  k.print [(style, (if k.useEmoji then sign.toList else []) ++ message.toList)]

def info (k : Console) (message : String) : String :=
  k.say .info "ℹ️ " message

def warn (k : Console) (message : String) : String :=
  k.say .warning "⚠️ " message

def fail (k : Console) (message : String) : String :=
  k.say .failure "❌ " message

def isKeyCharacter (c : Char) : Bool :=
  Text.isIdentifier c || c == '-'

/-- A value in double quotes on one line, with its quotes. -/
def quotedValue? (s : List Char) : Option (List Char) :=
  match s with
  | '"' :: cs =>
    let inner := cs.takeWhile fun c => c != '"' && c != '\n'
    match cs.drop inner.length with
    | '"' :: _ => some ('"' :: (inner ++ ['"']))
    | _ => none
  | _ => none

/-- The value at the start of a text: in quotes, or up to the next blank. -/
def value? (s : List Char) : Option (List Char) :=
  match quotedValue? s with
  | some v => some v
  | none =>
    let run := s.takeWhile (!Text.isBlank ·)
    if run.isEmpty then none else some run

/-- The pair at the start of a text: its key and its value. -/
def pair? (s : List Char) : Option (List Char × List Char) :=
  let key := s.takeWhile isKeyCharacter
  if key.isEmpty then none
  else
    match s.drop key.length with
    | '=' :: rest => (value? rest).map (key, ·)
    | _ => none

def commandKeys : List String := ["command", "cmd"]

def valueStyle (key : List Char) : Style :=
  if commandKeys.contains (String.ofList key) then .command else .value

def gapPiece (gap : List Char) : List Piece :=
  if gap.isEmpty then [] else [(.gap, gap)]

def pairPieces (key value : List Char) : List Piece :=
  [(.key, key), (.gap, ['=']), (valueStyle key, value)]

/-- The pieces of a message: its pairs and what stands between them; `gap` has been read since
the last pair. -/
def highlightFrom (gap : List Char) (s : List Char) : List Piece :=
  match s with
  | [] => gapPiece gap
  | c :: cs =>
    match pair? (c :: cs) with
    | some (key, value) =>
      gapPiece gap ++ pairPieces key value ++
        highlightFrom [] (cs.drop (key.length + value.length))
    | none => highlightFrom (gap ++ [c]) cs
termination_by s.length
decreasing_by
  · simp only [List.length_drop, List.length_cons]
    omega
  · simp

def highlight (message : String) : List Piece :=
  highlightFrom [] message.toList

/-- A debug message, if debug messages are wanted. -/
def debugText (k : Console) (message : String) : String :=
  if k.debug then k.print ((.label, "[debug] ".toList) :: highlight message) else ""

/-- Output of a tool: a line feed is added if the last line has none. -/
def echo (text : String) : String :=
  if text = "" || Text.endsWith text "\n" then text else text ++ "\n"

def ofSettings (s : Settings) : Console where
  useEmoji := s.useEmoji
  useColor := s.useColor
  debug := s.debug

end Console
end TriplePass
