import TriplePass.Toml.Scan
import TriplePass.Value

/-! # Numbers, dates and times

A digit run may hold single underscores between its digits. A fraction or an exponent makes a
number floating; decimal integers are limited to 4300 digits. A date may be followed by a time,
and a time by an offset; what does not fit is left for the next scan to refuse.
-/
namespace TriplePass.Toml

/-- Further digits of a run, each with at most one underscore in front. -/
def moreDigits (p : Char → Bool) : List Char → List Char × List Char
  | [] => ([], [])
  | '_' :: c :: cs =>
    if p c then
      let (ds, rest) := moreDigits p cs
      (c :: ds, rest)
    else ([], '_' :: c :: cs)
  | c :: cs =>
    if p c then
      let (ds, rest) := moreDigits p cs
      (c :: ds, rest)
    else ([], c :: cs)

def digits (p : Char → Bool) : Scan (List Char)
  | c :: cs =>
    if p c then
      let (ds, rest) := moreDigits p cs
      .ok (c :: ds, rest)
    else .error .malformed
  | [] => .error .malformed

def radix? : Char → Option (Nat × (Char → Bool))
  | 'x' => some (16, isHexDigit)
  | 'o' => some (8, fun c => '0' ≤ c && c ≤ '7')
  | 'b' => some (2, fun c => c == '0' || c == '1')
  | _ => none

def radixInteger : Scan Value := do
  .expect '0'
  match (← .peek).bind radix? with
  | some (base, p) => .skip 1; return .integer (ofDigits base (← digits p))
  | none => .malformed

/-- The sign in front of a number, as whether it is negative. -/
def sign : Scan Bool := do
  match ← .peek with
  | some '-' => .skip 1; return true
  | some '+' => .skip 1; return false
  | _ => return false

/-- A zero stands alone; other whole parts start with another digit. -/
def wholePart : Scan (List Char) := do
  if (← .peek) = some '0' then .skip 1; return ['0']
  else digits isAsciiDigit

def fractionPart : Scan (List Char) := do
  .expect '.'
  digits isAsciiDigit

def exponentPart : Scan Int := do
  let mark := (← .peek).getD ' '
  unless mark = 'e' ∨ mark = 'E' do .malformed
  .skip 1
  let negative ← sign
  let n := ofDigits 10 (← digits isAsciiDigit)
  return if negative then -(n : Int) else n

def maxIntegerDigits : Nat := 4300

def decimalNumber : Scan Value := do
  let negative ← sign
  let whole ← wholePart
  let fraction ← .optional fractionPart
  let exponent ← .optional exponentPart
  if fraction.isNone ∧ exponent.isNone then
    if maxIntegerDigits < whole.length then throw (.longInteger whole.length)
    let n := ofDigits 10 whole
    return .integer (if negative then -(n : Int) else n)
  let places := fraction.getD []
  return .float (.ofDecimal negative (ofDigits 10 (whole ++ places))
    (exponent.getD 0 - places.length))

def specialFloat : Scan Value := do
  let negative ← sign
  if ← .looksAt ['i', 'n', 'f'] then .skip 3; return .float (.infinite negative)
  else if ← .looksAt ['n', 'a', 'n'] then .skip 3; return .float .notANumber
  else .malformed

/-- Two digits of a value between two bounds. -/
def twoDigits (least greatest : Nat) : Scan Nat := do
  let n := ofDigits 10 (← .exactly 2 isAsciiDigit)
  if least ≤ n ∧ n ≤ greatest then return n else .malformed

/-- The microseconds that a fraction's first six digits give. -/
def microseconds (ds : List Char) : Nat :=
  ofDigits 10 (ds.take 6 ++ List.replicate (6 - ds.length) '0')

def secondFraction : Scan Nat := do
  .expect '.'
  let ds ← .takeWhile isAsciiDigit
  if ds.isEmpty then .malformed else return microseconds ds

def timeOfDay : Scan TimeOfDay := do
  let hour ← twoDigits 0 23
  .expect ':'
  let minute ← twoDigits 0 59
  .expect ':'
  let second ← twoDigits 0 59
  return ⟨hour, minute, second, (← .optional secondFraction).getD 0⟩

def writtenDate : Scan Date := do
  let year := ofDigits 10 (← .exactly 4 isAsciiDigit)
  .expect '-'
  let month ← twoDigits 1 12
  .expect '-'
  return ⟨year, month, ← twoDigits 1 31⟩

def zoneOffset : Scan Int := do
  match ← .peek with
  | some 'Z' => .skip 1; return 0
  | some 'z' => .skip 1; return 0
  | some c =>
    unless c = '+' ∨ c = '-' do .malformed
    .skip 1
    let hours ← twoDigits 0 23
    .expect ':'
    let minutes : Int := hours * 60 + (← twoDigits 0 59)
    return if c = '-' then -minutes else minutes
  | none => .malformed

def timeBehindDate : Scan TimeOfDay := do
  match ← .peek with
  | some c => if c = 'T' ∨ c = 't' ∨ c = ' ' then .skip 1; timeOfDay else .malformed
  | none => .malformed

def isLeap (year : Nat) : Bool :=
  year % 4 == 0 && (year % 100 != 0 || year % 400 == 0)

def daysIn (year : Nat) : (month : Nat) → Nat
  | 2 => if isLeap year then 29 else 28
  | 4 | 6 | 9 | 11 => 30
  | _ => 31

def isCalendarDate (d : Date) : Bool :=
  1 ≤ d.year && d.day ≤ daysIn d.year d.month

/-- The value that starts with a written date. -/
def dated (d : Date) : Scan Value := do
  let t ← .optional timeBehindDate
  let offset ← if t.isSome then .optional zoneOffset else pure none
  unless isCalendarDate d do .malformed
  match t with
  | some t => return .dateTime d t offset
  | none => return .date d

def number : Scan Value := do
  if let some v ← .optional radixInteger then return v
  match (← get).head? with
  | some c =>
    if isAsciiDigit c then decimalNumber
    else
      match (← get).drop 1 with
      | d :: _ => if isAsciiDigit d then decimalNumber else specialFloat
      | [] => .malformed
  | none => .malformed

/-- A number, a date or a time. -/
def scalar : Scan Value := do
  if let some d ← .optional writtenDate then dated d
  else if let some t ← .optional timeOfDay then return .time t
  else number

end TriplePass.Toml
