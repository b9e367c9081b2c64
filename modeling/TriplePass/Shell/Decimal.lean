import TriplePass.Number.Binary64
import TriplePass.Shell.Arithmetic

/-! # Fractions in formatted output

A fraction is read as the nearest number of 64 bits and written exactly, rounded to the digits that
are asked for, a tie going to the even digit.
-/
namespace TriplePass.Shell.Decimal

/-! ## Reading -/

/-- The digits at the start of a text in a base, with those behind a point: their value, how many
stand behind the point, how many there are, and the rest. -/
def mantissa (base : Nat) (s : Octets) : Nat × Nat × Nat × Octets :=
  let isDigit := fun (c : Char) => (Arithmetic.digitIn? base c).isSome
  let whole := s.takeWhile isDigit
  let rest := s.drop whole.length
  match rest with
  | '.' :: more =>
    let part := more.takeWhile isDigit
    if whole.isEmpty && part.isEmpty then (0, 0, 0, s)
    else
      (Arithmetic.digitsValue base (whole ++ part), part.length, whole.length + part.length,
        more.drop part.length)
  | _ => (Arithmetic.digitsValue base whole, 0, whole.length, rest)

/-- The exponent behind one of its letters, and the rest. -/
def exponent (letter : Char) (s : Octets) : Int × Octets :=
  match s with
  | c :: rest =>
    let (negative, digits) :=
      match rest with
      | '-' :: more => (true, more)
      | '+' :: more => (false, more)
      | _ => (false, rest)
    let run := digits.takeWhile Char.isDigit
    if c.toLower = letter && !run.isEmpty then
      let n : Int := Arithmetic.digitsValue 10 run
      (if negative then -n else n, digits.drop run.length)
    else (0, s)
  | [] => (0, s)

def startsWithWord (word : String) (s : Octets) : Bool :=
  word.toList.isPrefixOf (s.map Char.toLower)

/-- A power of two that is bounded, so that no huge one is formed. -/
def scaled (negative : Bool) (n : Nat) (e : Int) : Binary64 :=
  if n = 0 then .finite negative 0 0
  else
    let e := max (-4000) (min 4000 e)
    Binary64.ofRatio negative (n * Nat.pow 2 e.toNat) (Nat.pow 2 (-e).toNat)

/-- The number that a text starts with, whether it is out of range, and the rest. -/
structure Reading where
  value : Binary64
  outOfRange : Bool := false
  rest : Octets

def isTiny : Binary64 → Bool
  | .finite _ m e => m = 0 || m < Nat.pow 2 52 && e ≤ -1074
  | .infinite _ => true
  | .notANumber => false

def unsigned (negative : Bool) (s : Octets) : Option Reading :=
  if startsWithWord "infinity" s then some ⟨.infinite negative, false, s.drop 8⟩
  else if startsWithWord "inf" s then some ⟨.infinite negative, false, s.drop 3⟩
  else if startsWithWord "nan" s then some ⟨.notANumber, false, s.drop 3⟩
  else
    let hexadecimal :=
      if startsWithWord "0x" s then
        let (n, places, count, rest) := mantissa 16 (s.drop 2)
        if count = 0 then none
        else
          let (e, rest) := exponent 'p' rest
          let value := scaled negative n (e - 4 * places)
          some ⟨value, n ≠ 0 && isTiny value, rest⟩
      else none
    match hexadecimal with
    | some r => some r
    | none =>
      let (n, places, count, rest) := mantissa 10 s
      if count = 0 then none
      else
        let (e, rest) := exponent 'e' rest
        let value := Binary64.ofDecimal negative n (e - places)
        some ⟨value, n ≠ 0 && isTiny value, rest⟩

def read? (s : Octets) : Option Reading :=
  match s.dropWhile Arithmetic.isBlank with
  | '-' :: rest => unsigned true rest
  | '+' :: rest => unsigned false rest
  | rest => unsigned false rest

/-! ## Writing -/

/-- A positive fraction. -/
structure Ratio where
  num : Nat
  den : Nat

def ratioOf (m : Nat) (e : Int) : Ratio :=
  ⟨m * Nat.pow 2 e.toNat, Nat.pow 2 (-e).toNat⟩

/-- The nearest integer to the ratio times a power of ten. -/
def rounded (r : Ratio) (places : Int) : Nat :=
  Binary64.roundHalfEven (r.num * Nat.pow 10 places.toNat) (r.den * Nat.pow 10 (-places).toNat)

/-- The exponent of the leading decimal digit of a ratio that is not zero. -/
def leading (r : Ratio) : Int :=
  let guess : Int := (Nat.toDigits 10 r.num).length - (Nat.toDigits 10 r.den).length
  let isAbove := r.den * Nat.pow 10 guess.toNat ≤ r.num * Nat.pow 10 (-guess).toNat
  if isAbove then guess else guess - 1

def padded (n : Nat) (digits : Octets) : Octets :=
  List.replicate (n - digits.length) '0' ++ digits

/-- Digits with a point before the last so many; a point at the end is shown only on demand. -/
def withPoint (alternate : Bool) (places : Nat) (n : Nat) : Octets :=
  let digits := padded (places + 1) (Octets.ofNat n)
  let whole := digits.take (digits.length - places)
  let part := digits.drop (digits.length - places)
  if part.isEmpty && !alternate then whole else whole ++ '.' :: part

def fixed (alternate : Bool) (places : Nat) (r : Ratio) : Octets :=
  withPoint alternate places (rounded r places)

def exponentText (width : Nat) (letter : Char) (x : Int) : Octets :=
  letter :: (if x < 0 then '-' else '+') :: padded width (Octets.ofNat x.natAbs)

/-- The digits and the exponent of a ratio, with so many digits behind the first. -/
def scientificDigits (places : Nat) (r : Ratio) : Nat × Int :=
  if r.num = 0 then (0, 0)
  else
    let x := leading r
    let n := rounded r (places - x)
    if n = Nat.pow 10 (places + 1) then (Nat.pow 10 places, x + 1) else (n, x)

def scientific (alternate : Bool) (places : Nat) (r : Ratio) : Octets :=
  let (n, x) := scientificDigits places r
  withPoint alternate places n ++ exponentText 2 'e' x

/-- A text without the zeros at the end of its fraction. -/
def withoutZeros (s : Octets) : Octets :=
  if s.contains '.' then
    match s.reverse.dropWhile (· == '0') with
    | '.' :: rest => rest.reverse
    | rest => rest.reverse
  else s

/-- The shorter one of both forms. -/
def general (alternate : Bool) (precision : Nat) (r : Ratio) : Octets :=
  let count := max 1 precision
  let (n, x) := scientificDigits (count - 1) r
  let trim := fun (s : Octets) => if alternate then s else withoutZeros s
  if -4 ≤ x && x < count then
    trim (fixed alternate (count - 1 - x).toNat r)
  else trim (withPoint alternate (count - 1) n) ++ exponentText 2 'e' x

/-- Hexadecimal digits behind a leading one, with a power of two. -/
def hexadecimal (alternate : Bool) (precision : Option Nat) (m : Nat) (e : Int) : Octets :=
  let x : Int := if m = 0 then 0 else e + 52
  let places := precision.getD 13
  let n := if places < 13 then Binary64.roundHalfEven m (Nat.pow 2 (4 * (13 - places)))
    else m * Nat.pow 2 (4 * (places - 13))
  let whole := n / Nat.pow 16 places
  let part := padded places (Nat.toDigits 16 (n % Nat.pow 16 places))
  let part := if places = 0 then [] else part
  let part := if precision.isNone then (part.reverse.dropWhile (· == '0')).reverse else part
  "0x".toList ++ Octets.ofNat whole ++
    (if part.isEmpty && !alternate then [] else '.' :: part) ++ exponentText 1 'p' x

/-- A number without its sign, in the form that a letter asks for. -/
def text (letter : Char) (alternate : Bool) (precision : Option Nat) : Binary64 → Octets
  | .notANumber => "nan".toList
  | .infinite _ => "inf".toList
  | .finite _ m e =>
    let places := precision.getD 6
    match letter with
    | 'f' => fixed alternate places (ratioOf m e)
    | 'e' => scientific alternate places (ratioOf m e)
    | 'g' => general alternate places (ratioOf m e)
    | _ => hexadecimal alternate precision m e

def isNegative : Binary64 → Bool
  | .notANumber => false
  | .infinite negative | .finite negative _ _ => negative

def isFinite : Binary64 → Bool
  | .finite .. => true
  | _ => false

end TriplePass.Shell.Decimal
