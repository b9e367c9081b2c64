import TriplePass.Shell.Syntax

/-! # Shell patterns

An asterisk stands for any text, a question mark for any character, and brackets for one of the
characters they list or, behind an exclamation mark, for any other. A quoted character stands for
itself only.
-/
namespace TriplePass.Shell

/-- A character of a pattern, and whether it is quoted. -/
abbrev Marked := List (Char × Bool)

inductive Item where
  | single (c : Char)
  | range (first last : Char)
  | listed (name : Octets)
  deriving DecidableEq, Repr

inductive Atom where
  | any
  | one
  | exactly (c : Char)
  | oneOf (inverted : Bool) (items : List Item)
  deriving DecidableEq, Repr

namespace Pattern

def quotedText (s : Octets) : Marked :=
  s.map (·, true)

def plainText (s : Octets) : Marked :=
  s.map (·, false)

/-- A backslash that is not quoted quotes the character behind it. -/
def resolved : Marked → Marked
  | ('\\', false) :: (c, _) :: rest => (c, true) :: resolved rest
  | m :: rest => m :: resolved rest
  | [] => []

/-- The classes of characters by their names. -/
def classes : List (String × (Char → Bool)) :=
  [("alpha", Char.isAlpha), ("digit", Char.isDigit), ("alnum", Char.isAlphanum),
    ("upper", Char.isUpper), ("lower", Char.isLower),
    ("space", fun c => c == ' ' || ('\t' ≤ c && c ≤ '\x0d')),
    ("blank", fun c => c == ' ' || c == '\t'),
    ("punct", fun c => '!' ≤ c && c ≤ '~' && !c.isAlphanum),
    ("print", fun c => ' ' ≤ c && c ≤ '~'), ("graph", fun c => '!' ≤ c && c ≤ '~'),
    ("cntrl", fun c => c < ' ' || c == '\x7f'),
    ("xdigit", fun c => c.isDigit || ('a' ≤ c && c ≤ 'f') || ('A' ≤ c && c ≤ 'F'))]

def accepts (c : Char) : Item → Bool
  | .single d => c == d
  | .range first last => first ≤ c && c ≤ last
  | .listed name => ((classes.lookup (String.ofList name)).map (· c)).getD false

/-- The name of a class at the start of a list of items, with its brackets and colons. -/
def className? (s : Marked) : Option (Octets × Marked) :=
  match s with
  | ('[', false) :: (':', false) :: rest =>
    let name := (rest.map Prod.fst).takeWhile Char.isAlpha
    match rest.drop name.length with
    | (':', false) :: (']', false) :: rest =>
      if (classes.lookup (String.ofList name)).isSome then some (name, rest) else none
    | _ => none
  | _ => none

/-- The items in brackets and what follows the closing one; the first character is an item also if
it is a bracket. -/
def items? : (fuel : Nat) → (first : Bool) → Marked → Option (List Item × Marked)
  | 0, _, _ => none
  | fuel + 1, first, s => do
    match className? s with
    | some (name, rest) =>
      let (items, rest) ← items? fuel false rest
      return (.listed name :: items, rest)
    | none =>
      match s with
      | [] => none
      | (c, quoted) :: rest =>
        if c = ']' && !quoted && !first then return ([], rest)
        else
          match rest with
          | ('-', false) :: (d, q) :: more =>
            if d = ']' && !q then
              let (items, rest) ← items? fuel false rest
              return (.single c :: items, rest)
            else
              let (items, rest) ← items? fuel false more
              return (.range c d :: items, rest)
          | _ =>
            let (items, rest) ← items? fuel false rest
            return (.single c :: items, rest)

def atoms : (fuel : Nat) → Marked → List Atom
  | 0, _ => []
  | fuel + 1, s =>
    match s with
    | [] => []
    | ('*', false) :: rest => .any :: atoms fuel rest
    | ('?', false) :: rest => .one :: atoms fuel rest
    | ('[', false) :: rest =>
      let (inverted, inside) :=
        match rest with
        | ('!', false) :: more => (true, more)
        | _ => (false, rest)
      match items? (inside.length + 1) true inside with
      | some (items, rest) => .oneOf inverted items :: atoms fuel rest
      | none => .exactly '[' :: atoms fuel rest
    | (c, _) :: rest => .exactly c :: atoms fuel rest

end Pattern

/-- The atoms of a pattern. -/
def Marked.atoms (s : Marked) : List Atom :=
  let s := Pattern.resolved s
  Pattern.atoms (s.length + 1) s

/-- Whether the pattern may stand for more than one text. -/
def Marked.isPattern (s : Marked) : Bool :=
  (Pattern.resolved s).any fun m => !m.2 && (m.1 == '*' || m.1 == '?' || m.1 == '[')

def Marked.text (s : Marked) : Octets :=
  s.map Prod.fst

def suffixes : Octets → List Octets
  | [] => [[]]
  | c :: cs => (c :: cs) :: suffixes cs

def fits : List Atom → Octets → Bool
  | [], s => s.isEmpty
  | .any :: rest, s => (suffixes s).any (fits rest)
  | _ :: _, [] => false
  | .one :: rest, _ :: cs => fits rest cs
  | .exactly d :: rest, c :: cs => c == d && fits rest cs
  | .oneOf inverted items :: rest, c :: cs =>
    (items.any (Pattern.accepts c)) != inverted && fits rest cs

end TriplePass.Shell
