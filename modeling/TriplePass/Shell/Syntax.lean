import TriplePass.Text.Utf8

/-! # Shell commands

The tools that the harness starts are shell scripts. Their text is taken byte by byte, so that
output which is no text comes out as it was written. A word is a row of parts; a quoted part is
never split into fields, and an empty quoted part keeps its word from vanishing.
-/
namespace TriplePass.Shell

/-- A text with one character for each byte. -/
abbrev Octets := List Char

namespace Octets

def ofBytes (bytes : Bytes) : Octets :=
  bytes.map fun b => Char.ofNat b.toNat

def toBytes (octets : Octets) : Bytes :=
  octets.map fun c => UInt8.ofNat c.toNat

def ofText (s : String) : Octets :=
  ofBytes (Utf8.encode s)

def toText (octets : Octets) : String :=
  String.ofList (Utf8.decode (toBytes octets))

def ofNat (n : Nat) : Octets :=
  Nat.toDigits 10 n

/-- The order of the dictionary, octet by octet. -/
def isUpTo (a b : Octets) : Bool :=
  !List.lex b a fun c d => c.toNat < d.toNat

def ofInt (n : Int) : Octets :=
  (toString n).toList

end Octets

inductive Side where
  | start
  | finish
  deriving DecidableEq, Repr

mutual

inductive Part where
  | literal (quoted : Bool) (text : Octets)
  | parameter (quoted : Bool) (name : Octets) (modifier : Modifier)
  | arithmetic (quoted : Bool) (expression : List Part)
  /-- What a command writes. -/
  | output (quoted : Bool) (body : Option Command)

/-- What is made of the value of a parameter. -/
inductive Modifier where
  | plain
  | length
  | trim (side : Side) (longest : Bool) (pattern : List Part)
  | fallback (evenIfEmpty : Bool) (word : List Part)
  | assign (evenIfEmpty : Bool) (word : List Part)
  | demand (evenIfEmpty : Bool) (word : List Part)
  | replacement (unlessEmpty : Bool) (word : List Part)
  /-- The word follows the value, and what comes behind it is left out. -/
  | ending (word : List Part)
  /-- A modifier that does not exist is a fault only where it is reached. -/
  | unknown

inductive Redirect where
  | write (descriptor : Nat) (force : Bool) (name : List Part)
  | append (descriptor : Nat) (name : List Part)
  | read (descriptor : Nat) (name : List Part)
  | readWrite (descriptor : Nat) (name : List Part)
  /-- The word gives another descriptor, or a minus sign to close this one. -/
  | duplicate (descriptor : Nat) (source : List Part)
  /-- Input that stands in the script itself. -/
  | document (descriptor : Nat) (text : List Part)

inductive Command where
  | simple (line : Nat) (assignments : List (Octets × List Part)) (words : List (List Part))
      (redirects : List Redirect)
  | redirected (line : Nat) (redirects : List Redirect) (body : Command)
  | subshell (line : Nat) (redirects : List Redirect) (body : Command)
  | background (line : Nat) (redirects : List Redirect) (body : Command)
  | pipeline (background : Bool) (stages : List Command)
  | sequence (commands : List Command)
  | both (first second : Command)
  | either (first second : Command)
  | negated (body : Command)
  /-- Goes on as long as the condition succeeds, or, if inverted, as long as it fails. -/
  | loop (inverted : Bool) (condition body : Command)
  | forEach (line : Nat) (name : Octets) (words : List (List Part)) (body : Command)
  | ifElse (condition first : Command) (second : Option Command)
  | select (line : Nat) (subject : List Part) (arms : List (List (List Part) × Option Command))
  | define (name : Octets) (body : Command)

end

abbrev Word := List Part

/-- The text of a word that is written without any quoting or expansion. -/
def Word.plain? : Word → Option Octets
  | [.literal false text] => some text
  | _ => none

def isNameCharacter (c : Char) : Bool :=
  c.isAlphanum || c == '_'

def isNameStart (c : Char) : Bool :=
  c.isAlpha || c == '_'

def isName : Octets → Bool
  | [] => false
  | c :: cs => isNameStart c && cs.all isNameCharacter

/-- The parameters that are written by one character. -/
def isSpecial (c : Char) : Bool :=
  c.isDigit || "@*#?$!-".toList.contains c

end TriplePass.Shell
