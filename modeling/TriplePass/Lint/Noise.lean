import TriplePass.Diagnostic
import TriplePass.Text.Digit
import TriplePass.Text.Identifier

/-! # Noise

Three phrases mark a warning that nobody wants to see. A phrase is a row of fixed words and
numerals, and it occurs where there is a word boundary at both of its ends.
-/
namespace TriplePass.Lint

inductive Piece where
  | words (text : List Char)
  | numeral
  deriving DecidableEq, Repr

abbrev Phrase := List Piece

/-- A place in a text: the character before it, and the text behind it. -/
structure Cursor where
  before : Option Char
  rest : List Char
  deriving DecidableEq, Repr

namespace Cursor

def isWord (neighbour : Option Char) : Bool :=
  neighbour.any Text.isIdentifier

/-- A word starts or ends here. -/
def isBoundary (c : Cursor) : Bool :=
  isWord c.before != isWord c.rest.head?

/-- The place behind `read`, which starts here. -/
def past (c : Cursor) (read : List Char) : Cursor :=
  ⟨read.getLast?.or c.before, c.rest.drop read.length⟩

end Cursor

def Piece.pass? : Piece → Cursor → Option Cursor
  | .words text, c => if text.isPrefixOf c.rest then some (c.past text) else none
  | .numeral, c =>
    let digits := c.rest.takeWhile Text.isDigit
    if digits.isEmpty then none else some (c.past digits)

namespace Phrase

def isHere (phrase : Phrase) (c : Cursor) : Bool :=
  c.isBoundary && (phrase.foldlM (fun c (piece : Piece) => piece.pass? c) c).any Cursor.isBoundary

def occursFrom (phrase : Phrase) (before : Option Char) : List Char → Bool
  | [] => phrase.isHere ⟨before, []⟩
  | c :: cs => phrase.isHere ⟨before, c :: cs⟩ || occursFrom phrase (some c) cs

def occursIn (phrase : Phrase) (text : List Char) : Bool :=
  occursFrom phrase none text

end Phrase

def noisyPhrases : List Phrase :=
  [[.words "is undocumented".toList],
    [.words "Line is longer than ".toList, .numeral, .words " characters".toList],
    [.words "does not match style guidelines".toList]]

/-- Only warnings are ever suppressed. -/
def isSuppressed (d : Diagnostic) : Bool :=
  d.severity == .warning && noisyPhrases.any (·.occursIn d.message.toList)

end TriplePass.Lint
