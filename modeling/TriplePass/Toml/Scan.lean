/-! # Scanning a document

A scan takes characters from the front of the rest of a document and fails for one of two causes:
the text is malformed, or a decimal integer has more digits than are converted.
-/
namespace TriplePass.Toml

inductive Fault where
  | malformed
  | longInteger (digits : Nat)
  deriving DecidableEq, Repr

abbrev Scan := StateT (List Char) (Except Fault)

namespace Scan

def malformed {α : Type} : Scan α :=
  fun _ => .error .malformed

def peek : Scan (Option Char) :=
  fun s => .ok (s.head?, s)

def looksAt (word : List Char) : Scan Bool :=
  fun s => .ok (word.isPrefixOf s, s)

def skip (count : Nat) : Scan Unit :=
  fun s => .ok ((), s.drop count)

def skipWhile (p : Char → Bool) : Scan Unit :=
  fun s => .ok ((), s.dropWhile p)

def takeWhile (p : Char → Bool) : Scan (List Char) :=
  fun s => .ok (s.span p)

def expect (c : Char) : Scan Unit
  | x :: rest => if x = c then .ok ((), rest) else .error .malformed
  | [] => .error .malformed

/-- The next `count` characters, all of them in the class. -/
def exactly (count : Nat) (p : Char → Bool) : Scan (List Char) := fun s =>
  let front := s.take count
  if front.length = count ∧ front.all p then .ok (front, s.drop count) else .error .malformed

/-- What the scan finds, or nothing at all taken where it fails. -/
def optional {α : Type} (scan : Scan α) : Scan (Option α) := fun s =>
  match scan s with
  | .ok (a, rest) => .ok (some a, rest)
  | .error _ => .ok (none, s)

end Scan

def isSpace (c : Char) : Bool :=
  c == ' ' || c == '\t'

def isSpaceOrNewline (c : Char) : Bool :=
  isSpace c || c == '\n'

/-- The control characters that no comment and no string may hold as such. -/
def isForbidden (c : Char) : Bool :=
  (c.toNat < 32 && c != '\t') || c.toNat == 127

def isAsciiDigit (c : Char) : Bool :=
  '0' ≤ c && c ≤ '9'

def isHexDigit (c : Char) : Bool :=
  isAsciiDigit c || ('a' ≤ c && c ≤ 'f') || ('A' ≤ c && c ≤ 'F')

def hexValue (c : Char) : Nat :=
  if isAsciiDigit c then c.toNat - 48 else c.toLower.toNat - 87

def ofDigits (base : Nat) (ds : List Char) : Nat :=
  ds.foldl (fun n c => base * n + hexValue c) 0

def skipSpace : Scan Unit :=
  .skipWhile isSpace

/-- A comment runs to the end of its line. -/
def skipComment : Scan Unit := do
  if (← .peek) = some '#' then
    if (← .takeWhile (· != '\n')).any isForbidden then .malformed

end TriplePass.Toml
