import TriplePass.Shell.Pattern

/-! # Fields

An expanded word is a row of pieces. What came from an unquoted expansion is split at the
separators; blanks among them are passed over in runs, the others each end a field. Where one
argument ends and the next begins, the word is cut.
-/
namespace TriplePass.Shell

inductive Piece where
  | literal (quoted : Bool) (text : Octets)
  | value (text : Octets)
  /-- Quotes: the field is there even if nothing else is. -/
  | mark
  | cut
  /-- Several quoted arguments end here: each blank of the next value is a separator of its own. -/
  | seam
  deriving DecidableEq, Repr

namespace Piece

def marked : Piece → Marked
  | .literal quoted text => text.map (·, quoted)
  | .value text => text.map (·, false)
  | .mark | .cut | .seam => []

def text : Piece → Octets
  | .literal _ text | .value text => text
  | .mark | .cut | .seam => []

end Piece

/-- The pieces as one text. -/
def textOf (pieces : List Piece) : Octets :=
  pieces.flatMap Piece.text

/-- The pieces as one pattern. -/
def markedOf (pieces : List Piece) : Marked :=
  pieces.flatMap Piece.marked

/-- The fields that are complete, and the one that is being filled, each backwards. -/
structure Splitter where
  done : List Marked := []
  current : Marked := []
  touched : Bool := false
  /-- Whether blanks count one by one. -/
  exact : Bool := false

namespace Splitter

def isOpen (s : Splitter) : Bool :=
  s.touched || !s.current.isEmpty

def close (s : Splitter) : Splitter :=
  { done := s.current.reverse :: s.done }

def push (s : Splitter) (text : Marked) : Splitter :=
  { s with current := text.reverseAux s.current }

def isWhite (c : Char) : Bool :=
  c == '\x00' || c == ' ' || c == '\t' || c == '\n'

/-- A NUL stands between arguments. -/
def isSeparator (separators : Octets) (c : Char) : Bool :=
  c == '\x00' || separators.contains c

/-- Passes over what still belongs to a separator: blanks, and if it was a blank itself one other
separator among them. -/
def skip (separators : Octets) : (blank : Bool) → Octets → Octets
  | _, [] => []
  | blank, c :: cs =>
    if !isSeparator separators c then c :: cs
    else if isWhite c then skip separators blank cs
    else if blank then skip separators false cs
    else c :: cs

def split (separators : Octets) : (fuel : Nat) → Splitter → Octets → Splitter
  | 0, s, _ => s
  | _ + 1, s, [] => s
  | fuel + 1, s, c :: cs =>
    if !isSeparator separators c then split separators fuel (s.push [(c, false)]) cs
    else if !s.isOpen && isWhite c then split separators fuel s cs
    else split separators fuel s.close (skip separators (isWhite c) cs)

/-- Splits a text at every separator. -/
def splitEach (separators : Octets) (s : Splitter) : Octets → Splitter
  | [] => s
  | c :: cs =>
    if isSeparator separators c then splitEach separators s.close cs
    else splitEach separators (s.push [(c, false)]) cs

def add (separators : Octets) (s : Splitter) : Piece → Splitter
  | .literal quoted text => s.push (text.map (·, quoted))
  | .value text =>
    if s.exact then splitEach separators { s with exact := false } text
    else split separators (text.length + 1) s text
  | .mark => { s with touched := true }
  | .cut => s.close
  | .seam => { s with exact := true }

def fields (s : Splitter) : List Marked :=
  (if s.isOpen then s.close else s).done.reverse

end Splitter

/-- The fields of an expanded word. -/
def fieldsOf (separators : Octets) (pieces : List Piece) : List Marked :=
  (pieces.foldl (Splitter.add separators) {}).fields

/-! ## Lines that are read -/

/-- How much of a line its last field takes: what is quoted counts, but does not keep the blanks
before it from ending the line. A separator that is no blank ends it only if nothing else follows;
`blank` says that the last separator was a blank. -/
def lastLength (separators : Octets) :
    (index : Nat) → (ended : Option Nat) → (seen blank : Bool) → Marked → Nat
  | index, ended, _, _, [] => ended.getD index
  | index, ended, seen, _, (_, true) :: rest =>
    lastLength separators (index + 1) ended seen false rest
  | index, ended, seen, blank, (c, false) :: rest =>
    let separates := separators.contains c
    let isBlank := separates && Splitter.isWhite c
    if !seen then
      lastLength separators (index + 1) (if separates then some index else none) separates isBlank
        rest
    else if isBlank then
      lastLength separators (index + 1) (ended.or (some index)) true blank rest
    else
      lastLength separators (index + 1) (if separates && blank then ended else none) true false rest

/-- A line as characters of which some are quoted, shared out to so many names: every name but the
last takes a field, and the last takes what is left, without the blanks at its end. -/
def shareOut (separators : Octets) : (names : Nat) → Marked → List Octets
  | 0, _ => []
  | n + 1, line =>
    let separates := fun (m : Char × Bool) => !m.2 && separators.contains m.1
    let isBlank := fun (m : Char × Bool) => separates m && Splitter.isWhite m.1
    let line := line.dropWhile isBlank
    if n = 0 then [Marked.text (line.take (lastLength separators 0 none false false line))]
    else
      let field := line.takeWhile (!separates ·)
      let behind := (line.drop field.length).dropWhile isBlank
      let behind :=
        match behind with
        | m :: more => if separates m then more else behind
        | [] => []
      Marked.text field :: shareOut separators n behind

end TriplePass.Shell
