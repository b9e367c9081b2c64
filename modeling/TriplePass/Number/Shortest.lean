import TriplePass.Number.Binary64

/-! # Shortest decimal text

For one digit, two digits and so on, the two multiples of the unit on either side of a number are
tried. The first count at which one of them reads back as the number gives its text; if both do,
the nearer is taken, and of two equally near ones the even one. Seventeen digits are always
enough.
-/
namespace TriplePass.Binary64

/-- The exponent of the leading decimal digit of `m * 2 ^ e`, for a positive `m`. -/
def magnitude (m : Nat) (e : Int) : Int :=
  ((Nat.toDigits 10 (m * Nat.pow 10 330 * Nat.pow 2 e.toNat / Nat.pow 2 (-e).toNat)).length : Int) - 331

/-- The candidates with unit `10 ^ unit` on either side of `m * 2 ^ e`, the nearer one first. -/
def neighbours (m : Nat) (e unit : Int) : List Nat :=
  let num := m * Nat.pow 2 e.toNat * Nat.pow 10 (-unit).toNat
  let den := Nat.pow 2 (-e).toNat * Nat.pow 10 unit.toNat
  let below := num / den
  if roundHalfEven num den = below then [below, below + 1] else [below + 1, below]

/-- The fewest digits that read back, with the exponent of their unit. -/
def shortestFrom (m : Nat) (e leading : Int) : (fuel count : Nat) → Nat × Int
  | 0, _ => (0, 0)
  | fuel + 1, count =>
    let unit := leading + 1 - count
    match (neighbours m e unit).find? fun d => ofDecimal false d unit == .finite false m e with
    | some d => (d, unit)
    | none => shortestFrom m e leading fuel (count + 1)

def shortest (m : Nat) (e : Int) : Nat × Int :=
  shortestFrom m e (magnitude m e) 17 1

/-- How a number is laid out: the leading exponents written positionally, and the least count of
digits in a written exponent. -/
structure Layout where
  least : Int
  greatest : Int
  exponentDigits : Nat

def padLeft (width : Nat) (ds : List Char) : List Char :=
  List.replicate (width - ds.length) '0' ++ ds

/-- A point after the first `whole` digits, with zeros where digits are missing. -/
def positional (digits : List Char) (whole : Int) : List Char :=
  if whole ≤ 0 then '0' :: '.' :: List.replicate (-whole).toNat '0' ++ digits
  else
    let n := whole.toNat
    let front := digits.take n ++ List.replicate (n - digits.length) '0'
    let back := digits.drop n
    front ++ '.' :: (if back.isEmpty then ['0'] else back)

def scientific (width : Nat) (digits : List Char) (leading : Int) : List Char :=
  let point := if digits.length = 1 then digits else digits.take 1 ++ '.' :: digits.drop 1
  let sign := if leading < 0 then '-' else '+'
  point ++ 'e' :: sign :: padLeft width (Nat.toDigits 10 leading.natAbs)

def layOut (layout : Layout) (digits : List Char) (leading : Int) : List Char :=
  if layout.least ≤ leading ∧ leading ≤ layout.greatest then positional digits (leading + 1)
  else scientific layout.exponentDigits digits leading

/-- The digits without the zeros at their end; a single zero stays. -/
def trimZeros (ds : List Char) : List Char :=
  match (ds.reverse.dropWhile (· = '0')).reverse with
  | [] => ['0']
  | kept => kept

def text (layout : Layout) : Binary64 → String
  | .notANumber => "nan"
  | .infinite negative => if negative then "-inf" else "inf"
  | .finite negative m e =>
    let sign := if negative then ['-'] else []
    let body :=
      if m = 0 then positional ['0'] 1
      else
        let (d, unit) := shortest m e
        let digits := Nat.toDigits 10 d
        layOut layout (trimZeros digits) (unit + digits.length - 1)
    String.ofList (sign ++ body)

end TriplePass.Binary64
