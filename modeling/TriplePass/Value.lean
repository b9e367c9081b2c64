import TriplePass.Number.Shortest

/-! # Values

What a configuration document can hold: text, numbers, truth values, dates and times, arrays and
tables. Null has no spelling in a file; it is the value that switches the linter off.
-/
namespace TriplePass

structure Date where
  year : Nat
  month : Nat
  day : Nat
  deriving DecidableEq, Repr

structure TimeOfDay where
  hour : Nat
  minute : Nat
  second : Nat
  microsecond : Nat := 0
  deriving DecidableEq, Repr

inductive Value where
  | null
  | boolean (b : Bool)
  | integer (n : Int)
  | float (x : Binary64)
  | string (s : String)
  | date (d : Date)
  | time (t : TimeOfDay)
  /-- The offset from universal time is in minutes. -/
  | dateTime (d : Date) (t : TimeOfDay) (offset : Option Int)
  | array (items : List Value)
  | table (entries : List (String × Value))
  deriving Inhabited, Repr

abbrev Table := List (String × Value)

def padded (width n : Nat) : String :=
  String.ofList (Binary64.padLeft width (Nat.toDigits 10 n))

def Date.text (d : Date) : String :=
  padded 4 d.year ++ "-" ++ padded 2 d.month ++ "-" ++ padded 2 d.day

/-- A fraction of a second is written with six places, and only if it is not zero. -/
def TimeOfDay.text (t : TimeOfDay) : String :=
  padded 2 t.hour ++ ":" ++ padded 2 t.minute ++ ":" ++ padded 2 t.second ++
    (if t.microsecond = 0 then "" else "." ++ padded 6 t.microsecond)

def offsetText (minutes : Int) : String :=
  (if minutes < 0 then "-" else "+") ++ padded 2 (minutes.natAbs / 60) ++ ":" ++
    padded 2 (minutes.natAbs % 60)

def dateTimeText (d : Date) (t : TimeOfDay) (offset : Option Int) : String :=
  d.text ++ "T" ++ t.text ++ (offset.map offsetText).getD ""

/-- Numbers are written positionally from `0.0001` to below `10 ^ 16`, and otherwise with an
exponent of at least two digits. -/
def floatLayout : Binary64.Layout := ⟨-4, 15, 2⟩

def floatText (x : Binary64) : String :=
  x.text floatLayout

end TriplePass
