import TriplePass.Shell.Syntax

/-! # Shell arithmetic

Expressions over integers of 64 bits, which wrap around. Numerals are decimal, octal behind a zero
or hexadecimal; a name stands for its variable and may be assigned to. Both sides of `&&`, `||` and
a choice are read, but only the one that counts is evaluated. An expression is evaluated up to the
point where it can no longer be read; there it has no value.
-/
namespace TriplePass.Shell.Arithmetic

inductive Unary where
  | negate
  | plus
  | invert
  | complement
  deriving DecidableEq, Repr

inductive Binary where
  | multiply | divide | remainder | add | subtract | shiftLeft | shiftRight
  | less | lessEqual | greater | greaterEqual | equal | notEqual
  | bitAnd | bitXor | bitOr
  deriving DecidableEq, Repr

/-- Why an expression has no value. -/
inductive Fault where
  | expectingPrimary
  | expectingEnd
  | expectingBracket
  | expectingColon
  | divisionByZero
  deriving DecidableEq, Repr

inductive Expr where
  | number (n : Int)
  | variable (name : Octets)
  | unary (o : Unary) (e : Expr)
  | binary (o : Binary) (a b : Expr)
  | both (a b : Expr)
  | either (a b : Expr)
  | choice (condition a b : Expr)
  /-- Assigns, combining with the old value first if there is an operator. -/
  | assign (name : Octets) (o : Option Binary) (e : Expr)
  /-- Where the text cannot be read. -/
  | unreadable (f : Fault)
  /-- Behind what has been read the text cannot be read. -/
  | brokenOff (e : Expr) (f : Fault)
  deriving Repr


def Fault.message : Fault → String
  | .expectingPrimary => "expecting primary"
  | .expectingEnd => "expecting EOF"
  | .expectingBracket => "expecting ')'"
  | .expectingColon => "expecting ':'"
  | .divisionByZero => "division by zero"

/-! ## Numbers -/

/-- The integer of 64 bits that a number wraps around to. -/
def wrap (n : Int) : Int :=
  Int.bmod n (Nat.pow 2 64)

/-- The nearest integer of 64 bits. -/
def clamp (n : Int) : Int :=
  max (-(Nat.pow 2 63)) (min (Nat.pow 2 63 - 1) n)

def digitIn? (base : Nat) (c : Char) : Option Nat :=
  let d :=
    if c.isDigit then c.toNat - 48
    else if 'a' ≤ c && c ≤ 'z' then c.toNat - 87
    else if 'A' ≤ c && c ≤ 'Z' then c.toNat - 55
    else base
  if d < base then some d else none

def digitsValue (base : Nat) (digits : Octets) : Nat :=
  digits.foldl (fun n c => base * n + (digitIn? base c).getD 0) 0

/-- The number at the start of a text, in the base that its first characters tell, and the rest. -/
def numeral (s : Octets) : Nat × Octets :=
  let inBase := fun (base : Nat) (s : Octets) =>
    let digits := s.takeWhile fun c => (digitIn? base c).isSome
    (digitsValue base digits, s.drop digits.length)
  match s with
  | '0' :: x :: d :: rest =>
    if (x = 'x' || x = 'X') && (digitIn? 16 d).isSome then inBase 16 (d :: rest)
    else if (x = 'b' || x = 'B') && (digitIn? 2 d).isSome then inBase 2 (d :: rest)
    else inBase 8 s
  | '0' :: _ => inBase 8 s
  | _ => inBase 10 s

def isBlank (c : Char) : Bool :=
  c == ' ' || ('\t' ≤ c && c ≤ '\x0d')

/-- How the base of a numeral is found. -/
inductive Base where
  | told
  | decimal
  deriving DecidableEq, Repr

/-- The number at the start of a text, behind blanks and a sign, and the rest; no result if no
digit is there. -/
def leadingNumber? (base : Base) (s : Octets) : Option (Int × Octets) :=
  let (negative, digits) :=
    match s.dropWhile isBlank with
    | '-' :: rest => (true, rest)
    | '+' :: rest => (false, rest)
    | rest => (false, rest)
  if digits.head?.any Char.isDigit then
    let (n, rest) :=
      match base with
      | .told => numeral digits
      | .decimal =>
        let run := digits.takeWhile Char.isDigit
        (digitsValue 10 run, digits.drop run.length)
    some (if negative then -(n : Int) else n, rest)
  else none

/-- The number that a text is, if it fits; blanks may stand around it. -/
def wholeNumber? (base : Base) (s : Octets) : Option Int :=
  match leadingNumber? base s with
  | some (n, rest) => if rest.all isBlank && clamp n = n then some n else none
  | none => if base = .told && s.all isBlank then some 0 else none

/-! ## Reading expressions -/

/-- An expression and the text behind it. -/
abbrev Read := Expr × Octets

/-- A reader stops where the text cannot be read: nothing is left for the others. -/
def unreadable (f : Fault) : Read :=
  (.unreadable f, [])

def brokenOff (e : Expr) (f : Fault) : Read :=
  (.brokenOff e f, [])

/-- The operators of two operands, longer ones first, each with how tightly it binds. -/
def operators : List (String × Binary × Nat) :=
  [("<<", .shiftLeft, 8), (">>", .shiftRight, 8), ("<=", .lessEqual, 7), (">=", .greaterEqual, 7),
    ("==", .equal, 6), ("!=", .notEqual, 6), ("<", .less, 7), (">", .greater, 7),
    ("+", .add, 9), ("-", .subtract, 9), ("*", .multiply, 10), ("/", .divide, 10),
    ("%", .remainder, 10), ("&", .bitAnd, 5), ("^", .bitXor, 4), ("|", .bitOr, 3)]

def skipBlanks (s : Octets) : Octets :=
  s.dropWhile fun c => c == ' ' || c == '\t' || c == '\n'

/-- The operators that an equals sign may follow in an assignment. -/
def assigning : List (String × Option Binary) :=
  [("<<=", some .shiftLeft), (">>=", some .shiftRight), ("+=", some .add), ("-=", some .subtract),
    ("*=", some .multiply), ("/=", some .divide), ("%=", some .remainder), ("&=", some .bitAnd),
    ("^=", some .bitXor), ("|=", some .bitOr), ("=", none)]

def assignOperator? (s : Octets) : Option (Option Binary × Octets) :=
  if "==".toList.isPrefixOf s then none
  else
    assigning.findSome? fun (text, o) =>
      if text.toList.isPrefixOf s then some (o, s.drop text.length) else none

/-- The operator at the start of a text. An operator that also assigns is none of them. -/
def operator? (s : Octets) : Option (Binary × Nat × Octets) :=
  if "&&".toList.isPrefixOf s || "||".toList.isPrefixOf s || (assignOperator? s).isSome then none
  else
    operators.findSome? fun (text, o, strength) =>
      if text.toList.isPrefixOf s then some (o, strength, s.drop text.length) else none

mutual

/-- An assignment, or an expression that does not assign. -/
def whole : (fuel : Nat) → Octets → Read
  | 0, _ => unreadable .expectingPrimary
  | fuel + 1, s =>
    let s := skipBlanks s
    let name := if s.head?.any isNameStart then s.takeWhile isNameCharacter else []
    match if name.isEmpty then none else assignOperator? (skipBlanks (s.drop name.length)) with
    | some (o, rest) =>
      let (e, rest) := whole fuel rest
      (.assign name o e, rest)
    | none => choiceAt fuel s

def choiceAt : (fuel : Nat) → Octets → Read
  | 0, _ => unreadable .expectingPrimary
  | fuel + 1, s =>
    let (e, rest) := eitherAt fuel s
    match skipBlanks rest with
    | '?' :: rest =>
      let (a, rest) := whole fuel rest
      match skipBlanks rest with
      | ':' :: rest =>
        let (b, rest) := choiceAt fuel rest
        (.choice e a b, rest)
      | _ => (.choice e (.brokenOff a .expectingColon) (.number 0), [])
    | _ => (e, rest)

def eitherAt : (fuel : Nat) → Octets → Read
  | 0, _ => unreadable .expectingPrimary
  | fuel + 1, s =>
    let (e, rest) := bothAt fuel s
    match skipBlanks rest with
    | '|' :: '|' :: rest =>
      let (more, rest) := eitherAt fuel rest
      (.either e more, rest)
    | _ => (e, rest)

def bothAt : (fuel : Nat) → Octets → Read
  | 0, _ => unreadable .expectingPrimary
  | fuel + 1, s =>
    let (e, rest) := primary fuel s
    let (e, rest) := binaryRest fuel 0 e rest
    match skipBlanks rest with
    | '&' :: '&' :: rest =>
      let (more, rest) := bothAt fuel rest
      (.both e more, rest)
    | _ => (e, rest)

/-- Goes on with the operators that bind more tightly than the given strength; among themselves
they associate to the left. -/
def binaryRest : (fuel strength : Nat) → Expr → Octets → Read
  | 0, _, e, s => (e, s)
  | fuel + 1, strength, e, s =>
    match operator? (skipBlanks s) with
    | some (o, tight, rest) =>
      if strength < tight then
        let (b, rest) := primary fuel rest
        let (b, rest) := binaryRest fuel tight b rest
        binaryRest fuel strength (.binary o e b) rest
      else (e, s)
    | none => (e, s)

def primary : (fuel : Nat) → Octets → Read
  | 0, _ => unreadable .expectingPrimary
  | fuel + 1, s =>
    let under := fun (o : Unary) (rest : Octets) =>
      let (e, rest) := primary fuel rest
      (Expr.unary o e, rest)
    match skipBlanks s with
    | '-' :: rest => under .negate rest
    | '+' :: rest => under .plus rest
    | '!' :: rest =>
      if rest.head? = some '=' then unreadable .expectingPrimary else under .invert rest
    | '~' :: rest => under .complement rest
    | '(' :: rest =>
      let (e, rest) := whole fuel rest
      match skipBlanks rest with
      | ')' :: rest => (e, rest)
      | _ => brokenOff e .expectingBracket
    | c :: rest =>
      if c.isDigit then
        let (n, rest) := numeral (c :: rest)
        (.number (clamp n), rest)
      else if isNameStart c then
        (.variable (c :: rest.takeWhile isNameCharacter), rest.dropWhile isNameCharacter)
      else unreadable .expectingPrimary
    | [] => unreadable .expectingPrimary

end

/-- Reads a whole expression. -/
def read (s : Octets) : Expr :=
  let (e, rest) := whole (8 * s.length + 16) s
  if (skipBlanks rest).isEmpty then e else .brokenOff e .expectingEnd

/-- Where an expression cannot be read, if that is in it at all. -/
def Expr.fault? : Expr → Option Fault
  | .number _ | .variable _ => none
  | .unary _ e | .assign _ _ e => e.fault?
  | .binary _ a b | .both a b | .either a b => a.fault?.or b.fault?
  | .choice c a b => (c.fault?.or a.fault?).or b.fault?
  | .unreadable f => some f
  | .brokenOff e f => e.fault?.or (some f)

/-! ## Values -/

def ofBool (b : Bool) : Int :=
  if b then 1 else 0

def Unary.apply : Unary → Int → Int
  | .negate, n => wrap (-n)
  | .plus, n => n
  | .invert, n => ofBool (n = 0)
  | .complement, n => -n - 1

/-- The bits of an integer as a natural number below `2 ^ 64`. -/
def bits (n : Int) : Nat :=
  (n % Nat.pow 2 64).toNat

def bitwise (f : Nat → Nat → Nat) (a b : Int) : Int :=
  wrap (f (bits a) (bits b))

def Binary.apply : Binary → Int → Int → Except Fault Int
  | .multiply, a, b => .ok (wrap (a * b))
  | .divide, a, b => if b = 0 then .error .divisionByZero else .ok (wrap (a.tdiv b))
  | .remainder, a, b => if b = 0 then .error .divisionByZero else .ok (wrap (a.tmod b))
  | .add, a, b => .ok (wrap (a + b))
  | .subtract, a, b => .ok (wrap (a - b))
  | .shiftLeft, a, b => .ok (wrap (a * Nat.pow 2 (b % 64).toNat))
  | .shiftRight, a, b => .ok (a.fdiv (Nat.pow 2 (b % 64).toNat))
  | .less, a, b => .ok (ofBool (a < b))
  | .lessEqual, a, b => .ok (ofBool (a ≤ b))
  | .greater, a, b => .ok (ofBool (b < a))
  | .greaterEqual, a, b => .ok (ofBool (b ≤ a))
  | .equal, a, b => .ok (ofBool (a = b))
  | .notEqual, a, b => .ok (ofBool (a ≠ b))
  | .bitAnd, a, b => .ok (bitwise Nat.land a b)
  | .bitXor, a, b => .ok (bitwise Nat.xor a b)
  | .bitOr, a, b => .ok (bitwise Nat.lor a b)

section
variable {m : Type → Type} [Monad m]
variable (fail : Fault → m Int) (value : Octets → m Int) (assign : Octets → Int → m Unit)

def applied (o : Binary) (a b : Int) : m Int :=
  match o.apply a b with
  | .ok n => pure n
  | .error f => fail f

/-- Passes over an expression that does not count; it must be one. -/
def passOver (e : Expr) (n : Int) : m Int :=
  match e.fault? with
  | some f => fail f
  | none => pure n

/-- The value of an expression, given how to look a variable up and how to assign to it. -/
def Expr.eval : Expr → m Int
  | .number n => pure n
  | .variable name => value name
  | .unary o e => o.apply <$> e.eval
  | .binary o a b => do
    let x ← a.eval
    let y ← b.eval
    applied fail o x y
  | .both a b => do
    let x ← a.eval
    if x = 0 then passOver fail b 0
    else
      let y ← b.eval
      return ofBool (y ≠ 0)
  | .either a b => do
    let x ← a.eval
    if x ≠ 0 then passOver fail b 1
    else
      let y ← b.eval
      return ofBool (y ≠ 0)
  | .choice condition a b => do
    let c ← condition.eval
    if c ≠ 0 then
      let n ← a.eval
      passOver fail b n
    else
      let _ ← passOver fail a 0
      b.eval
  | .assign name none e => do
    let n ← e.eval
    assign name n
    return n
  | .assign name (some o) e => do
    let n ← e.eval
    let old ← value name
    let n ← applied fail o old n
    assign name n
    return n
  | .unreadable f => fail f
  | .brokenOff e f => do
    let _ ← e.eval
    fail f

end

end TriplePass.Shell.Arithmetic
