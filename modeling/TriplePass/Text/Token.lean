import TriplePass.Text.Identifier

/-! # Whole tokens

A word occurs as a whole token where the characters on both sides of the occurrence, if any, are
no identifier characters. The scan goes from one occurrence to the next; behind an occurrence that
is no token it goes on one character further, so overlapping occurrences and the empty word are
found too.
-/
namespace TriplePass.Text

/-- `pattern` occurs somewhere in the text. -/
def occursIn (pattern : List Char) : List Char → Bool
  | [] => pattern.isEmpty
  | c :: cs => pattern.isPrefixOf (c :: cs) || occursIn pattern cs

/-- A neighbour that does not continue a token: none, or no identifier character. -/
def isEdge (neighbour : Option Char) : Bool :=
  neighbour.all (!isIdentifier ·)

/-- The first occurrence of a word in a text that comes behind `before`: the character in front of
the occurrence, and the text from there on. -/
def seek? (word : List Char) (before : Option Char) (text : List Char) :
    Option (Option Char × List Char) :=
  if word.isPrefixOf text then some (before, text)
  else
    match text with
    | [] => none
    | c :: cs => seek? word (some c) cs

theorem length_le_of_seek? {word text found : List Char} {before edge : Option Char}
    (h : seek? word before text = some (edge, found)) : found.length ≤ text.length := by
  fun_induction seek? word before text with
  | case1 =>
    cases h
    exact Nat.le_refl _
  | case2 => cases h
  | case3 before c cs hword ih => exact Nat.le_succ_of_le (ih h)

/-- A word at the start of a text is a token there. -/
def standsAlone (word : List Char) (before : Option Char) (text : List Char) : Bool :=
  isEdge before && isEdge (text.drop word.length).head?

def tokenFrom (word : List Char) (before : Option Char) (text : List Char) : Bool :=
  match _h : seek? word before text with
  | none => false
  | some (edge, []) => standsAlone word edge []
  | some (edge, c :: cs) => standsAlone word edge (c :: cs) || tokenFrom word (some c) cs
termination_by text.length
decreasing_by exact length_le_of_seek? _h

def hasToken (word text : List Char) : Bool :=
  tokenFrom word none text

end TriplePass.Text
