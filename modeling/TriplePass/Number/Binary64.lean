/-! # Binary floating point

A number of 53 binary digits and an exponent, an infinity, or not a number. A decimal numeral is
rounded to the nearest such number, a tie going to the even one; back again, a finite number is
written with the fewest decimal digits that round to it.
-/
namespace TriplePass

/-- `finite negative m e` is `m * 2 ^ e`, signed; zero has `m = 0`. -/
inductive Binary64 where
  | notANumber
  | infinite (negative : Bool)
  | finite (negative : Bool) (m : Nat) (e : Int)
  deriving DecidableEq, Repr

namespace Binary64

/-- The nearest integer to `num / den`, a tie going to the even one. -/
def roundHalfEven (num den : Nat) : Nat :=
  let q := num / den
  let r := num % den
  if 2 * r < den then q
  else if den < 2 * r then q + 1
  else if q % 2 = 0 then q else q + 1

/-- The exponent `e` at which `num / den` lies between `2 ^ 52` and `2 ^ 53` times `2 ^ e`, but
not below the least exponent. -/
def exponentFor (num den : Nat) : Int :=
  let e := (Nat.log2 num : Int) - Nat.log2 den - 52
  let scaled := if 0 ≤ e then num / (den * Nat.pow 2 e.toNat) else num * Nat.pow 2 (-e).toNat / den
  max (if scaled < Nat.pow 2 52 then e - 1 else e) (-1074)

/-- The nearest number to `num / den`, for a positive `den`. -/
def ofRatio (negative : Bool) (num den : Nat) : Binary64 :=
  if num = 0 then .finite negative 0 0
  else
    let e := exponentFor num den
    let m := if 0 ≤ e then roundHalfEven num (den * Nat.pow 2 e.toNat)
      else roundHalfEven (num * Nat.pow 2 (-e).toNat) den
    let (m, e) := if m = Nat.pow 2 53 then (Nat.pow 2 52, e + 1) else (m, e)
    if m = 0 then .finite negative 0 0
    else if 971 < e then .infinite negative
    else .finite negative m e

/-- The nearest number to `digits * 10 ^ exponent`. Numerals far beyond the range on either side
are settled by their size alone, so that no huge power of ten is formed. -/
def ofDecimal (negative : Bool) (digits : Nat) (exponent : Int) : Binary64 :=
  let size := exponent + (Nat.toDigits 10 digits).length
  if digits = 0 ∨ size < -330 then .finite negative 0 0
  else if 310 < size then .infinite negative
  else ofRatio negative (digits * Nat.pow 10 exponent.toNat) (Nat.pow 10 (-exponent).toNat)

/-- The integer that the number is, if it is one. -/
def toInt? : Binary64 → Option Int
  | .finite negative m e =>
    let signed (n : Nat) : Int := if negative then -(n : Int) else n
    if 0 ≤ e then some (signed (m * Nat.pow 2 e.toNat))
    else if m % Nat.pow 2 (-e).toNat = 0 then some (signed (m / Nat.pow 2 (-e).toNat))
    else none
  | _ => none

end Binary64
end TriplePass
