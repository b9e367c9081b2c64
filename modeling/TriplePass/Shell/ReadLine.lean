import TriplePass.Shell.Declare
import TriplePass.Shell.Fields

/-! # Reading lines

A line is read from the standard input and shared out to variables. Unless it is read raw, a
backslash quotes the character behind it, and a line with one at its end goes on in the next.
-/
namespace TriplePass.Shell

/-- A line with its quoted characters marked, how much has been read, and whether it was ended. -/
structure InputLine where
  text : Marked
  length : Nat
  ended : Bool

/-- The line at the start of a text. NUL is left out; `count` is what has been read so far. -/
def inputLine (raw : Bool) : (count : Nat) → Octets → InputLine
  | count, [] => ⟨[], count, false⟩
  | count, '\n' :: _ => ⟨[], count + 1, true⟩
  | count, '\x00' :: rest => inputLine raw (count + 1) rest
  | count, '\\' :: c :: rest =>
    if raw then
      let line := inputLine raw (count + 1) (c :: rest)
      { line with text := ('\\', false) :: line.text }
    else
      let line := inputLine raw (count + 2) rest
      if c = '\n' || c = '\x00' then line else { line with text := (c, true) :: line.text }
  | count, c :: rest =>
    let line := inputLine raw (count + 1) rest
    if c = '\\' && !raw then line else { line with text := (c, false) :: line.text }

def readWords (words : List Octets) : Action Unit := do
  let (found, names) ← flags "p:r" words
  if names.isEmpty then fail "arg count".toList
  else
    let s ← get
    let line := inputLine (has found 'r') 0 ((s.unread 0).getD [])
    set (s.skip 0 line.length)
    let values := shareOut s.separators names.length line.text
    (names.zip values).forM fun (name, value) => do
      checkName name
      assign name value
    setStatus (if line.ended then 0 else 1)

end TriplePass.Shell
