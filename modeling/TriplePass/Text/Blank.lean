/-! # Blank characters

The blanks are the white space of every script together with the four information separators
U+001C to U+001F. Flag values are stripped of them at both ends, and the linter's message starts
at the first character that is none.
-/
namespace TriplePass.Text

def isBlank (c : Char) : Bool :=
  let n := c.toNat
  (9 ≤ n && n ≤ 13) || (28 ≤ n && n ≤ 32) || n == 0x85 || n == 0xA0 || n == 0x1680 ||
  (0x2000 ≤ n && n ≤ 0x200A) || n == 0x2028 || n == 0x2029 || n == 0x202F || n == 0x205F ||
  n == 0x3000

/-- The text without the characters of a class at its two ends. -/
def stripWhere (p : Char → Bool) (s : List Char) : List Char :=
  ((s.dropWhile p).reverse.dropWhile p).reverse

def strip (s : List Char) : List Char :=
  stripWhere isBlank s

end TriplePass.Text
