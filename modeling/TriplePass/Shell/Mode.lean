import TriplePass.Shell.Syntax

/-! # File modes in symbols

A mode is changed by clauses with commas between them. A clause names classes of users, or none for
all of them, and then gives, adds or takes away rights, several times if need be. The rights of a
class that are copied are those from before all changes.
-/
namespace TriplePass.Shell.Mode

/-- The lowest bit of a class of users. -/
def classBit? : Char → Option Nat
  | 'u' => some 0o100
  | 'g' => some 0o010
  | 'o' => some 0o001
  | 'a' => some 0o111
  | _ => none

/-- The three bits of a right, or of the class that it is copied from. -/
def rightBits? (before : Nat) : Char → Option Nat
  | 'r' => some 4
  | 'w' => some 2
  | 'x' => some 1
  | 'u' => some (before / 64 % 8)
  | 'g' => some (before / 8 % 8)
  | 'o' => some (before % 8)
  | 'X' => some (if before &&& 0o111 = 0 then 0 else 1)
  | 's' => some 0
  | _ => none

def union (bits : List Nat) : Nat :=
  bits.foldl (· ||| ·) 0

def without (mode bits : Nat) : Nat :=
  mode &&& (0o777 ^^^ (bits &&& 0o777))

def isOperator (c : Char) : Bool :=
  c == '=' || c == '+' || c == '-'

/-- The mode after an operator with rights for the classes that the bits stand for. -/
def apply (operator : Char) (classes rights mode : Nat) : Nat :=
  match operator with
  | '+' => mode ||| rights * classes
  | '-' => without mode (rights * classes)
  | _ => without mode (7 * classes) ||| rights * classes

/-- The mode after the clauses of a text; there is none if it is not made of clauses. `classes` are
those that the clause has named so far. -/
def changes (before : Nat) : (fuel : Nat) → (classes mode : Nat) → Octets → Option Nat
  | 0, _, mode, _ => some mode
  | _ + 1, _, mode, [] => some mode
  | fuel + 1, classes, mode, s =>
    let named := s.takeWhile fun c => (classBit? c).isSome
    let classes := union (classes :: named.filterMap classBit?)
    let classes := if classes = 0 then 0o111 else classes
    match s.drop named.length with
    | [] => none
    | operator :: rest =>
      if !isOperator operator then none
      else
        let found := rest.takeWhile fun c => (rightBits? before c).isSome
        let mode := apply operator classes (union (found.filterMap (rightBits? before))) mode
        match rest.drop found.length with
        | ',' :: rest => changes before fuel 0 mode rest
        | [] => some mode
        | c :: rest => if isOperator c then changes before fuel classes mode (c :: rest) else none

def changed? (text : Octets) (mode : Nat) : Option Nat :=
  changes mode (text.length + 1) 0 mode text

end TriplePass.Shell.Mode
