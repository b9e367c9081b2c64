/-! # Lines

A text file ends its lines by a line feed, by a carriage return, or by both in this order; reading
it turns each of the three into one line feed. The lint filter cuts more finely: it also ends a
line at the vertical tab, the form feed, the information separators, the next-line character and
the two Unicode separators, and it keeps every ending with its line.
-/
namespace TriplePass.Text

/-- A text being read: whether the last character was a carriage return, and the text so far, last
character first. -/
structure Folding where
  returned : Bool := false
  text : List Char := []

def Folding.feed (f : Folding) (c : Char) : Folding :=
  if c = '\r' then ⟨true, '\n' :: f.text⟩
  else if f.returned && c = '\n' then ⟨false, f.text⟩
  else ⟨false, c :: f.text⟩

def foldNewlines (s : List Char) : List Char :=
  (s.foldl Folding.feed {}).text.reverse

/-- A text being cut: the open line and the closed ones, each last first; `returned` says that the
open line ends in a carriage return, to which a line feed would still belong. -/
structure Cutting where
  returned : Bool := false
  line : List Char := []
  lines : List (List Char) := []

namespace Cutting

def close (t : Cutting) : Cutting :=
  ⟨false, [], t.line.reverse :: t.lines⟩

def finish (t : Cutting) : List (List Char) :=
  (if t.line.isEmpty then t else t.close).lines.reverse

/-- Cuts after every line feed. -/
def feed (t : Cutting) (c : Char) : Cutting :=
  let t := { t with line := c :: t.line }
  if c = '\n' then t.close else t

end Cutting

/-- The lines of a text, each with the line feed that ends it. -/
def lines (s : List Char) : List (List Char) :=
  (s.foldl Cutting.feed {}).finish

def endsLine (c : Char) : Bool :=
  c == '\n' || c == '\x0b' || c == '\x0c' || c == '\x1c' || c == '\x1d' || c == '\x1e' ||
  c == '\u0085' || c == '\u2028' || c == '\u2029'

namespace Cutting

def extend (t : Cutting) (c : Char) : Cutting :=
  let t := { t with line := c :: t.line }
  if c = '\r' then { t with returned := true }
  else if endsLine c then t.close
  else t

/-- Cuts after every line ending of any kind. -/
def feedAny (t : Cutting) (c : Char) : Cutting :=
  if t.returned then
    if c = '\n' then ({ t with line := c :: t.line }).close else t.close.extend c
  else t.extend c

end Cutting

/-- The lines of a text, cut after line endings of any kind and each with its ending. -/
def linesAny (s : List Char) : List (List Char) :=
  (s.foldl Cutting.feedAny {}).finish

/-- The line without the carriage returns and line feeds at its end. -/
def chomp (line : List Char) : List Char :=
  (line.reverse.dropWhile fun c => c == '\r' || c == '\n').reverse

end TriplePass.Text
