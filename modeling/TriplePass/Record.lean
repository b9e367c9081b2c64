import TriplePass.Outcome
import TriplePass.Settings.Reading
import TriplePass.Text.Blank
import TriplePass.Text.Digit

/-! # Records

Diagnostics and outcomes are read from tables of values. Fields that are not known do not count;
those that are missing or refused are reported together. A whole number may also be given as a
truth value, or by its decimal digits, at most 4300, with single underscores between them and a
fraction of zeros behind them.
-/
namespace TriplePass.Record

/-- A field that must be there. -/
def required {α : Type} (name : String) (item : Value → Read α) (t : Table) : Read α :=
  ((Dictionary.get? t name).elim (refuse .missing) item).within (.key name)

def optional {α : Type} (name : String) (default : α) (item : Value → Read α) (t : Table) :
    Read α :=
  ((Dictionary.get? t name).elim (.ok default) item).within (.key name)

/-- The blanks but for the information separators. -/
def isWhite (c : Char) : Bool :=
  Text.isBlank c && !('\x1c' ≤ c && c ≤ '\x1f')

/-- The text from its first digit on that is no leading zero; of zeros alone the last character
stays, and of zeros before a point the one next to it. Underscores may stand among the zeros, and
a minus sign behind them. -/
def withoutLeadingZeros (last : Char) : List Char → Option (List Char)
  | [] => some [last]
  | c :: cs =>
    if c = '0' || c = '_' then withoutLeadingZeros c cs
    else if c.isDigit || c = '-' then some (c :: cs)
    else if c = '.' then some (last :: c :: cs)
    else none

/-- The text without a fraction of zeros; the fraction must have a digit. -/
def withoutZeroFraction (s : List Char) : List Char :=
  let fraction := (s.dropWhile (· != '.')).drop 1
  if !fraction.isEmpty && fraction.all (· == '0') then s.takeWhile (· != '.') else s

/-- Underscores are single and neither first nor last. -/
def isWellJoined (s : List Char) : Bool :=
  s.head? != some '_' && s.getLast? != some '_' && (s.zip s.tail).all (· != ('_', '_'))

def withoutUnderscores (s : List Char) : List Char :=
  if isWellJoined s then s.filter (· != '_') else s

/-- The text of an integer reduced to its sign and digits, if it starts like one. -/
def reduced (s : List Char) : Option (List Char) := do
  let s ←
    match s with
    | '+' :: '-' :: _ => none
    | '+' :: rest => some rest
    | _ => some s
  let s ←
    match s with
    | '0' :: rest => withoutLeadingZeros '0' rest
    | c :: _ => if c.isDigit || c = '-' then some s else none
    | [] => none
  return withoutUnderscores (withoutZeroFraction s)

def maxDigits : Nat := 4300

/-- The number that digits denote; no zero leads them. What follows a run of too many digits does
not count any more. -/
def natural (s : List Char) : Read Nat :=
  let digits := s.takeWhile Char.isDigit
  if digits.head? = some '0' then if s = ['0'] then .ok 0 else refuse .unreadableInteger
  else if maxDigits < digits.length then refuse .oversizedInteger
  else if digits.isEmpty || digits.length ≠ s.length then refuse .unreadableInteger
  else .ok (Text.numeral digits)

def integer (s : String) : Read Int :=
  match reduced (Text.stripWhere isWhite s.toList) with
  | none => refuse .unreadableInteger
  | some ('-' :: digits) => (fun n : Nat => -(n : Int)) <$> natural digits
  | some digits => (fun n : Nat => (n : Int)) <$> natural digits

def readInteger : Value → Read Int
  | .integer n => .ok n
  | .boolean b => .ok (if b then 1 else 0)
  | .float (.finite negative m e) =>
    match (Binary64.finite negative m e).toInt? with
    | some n => if isSafeWord n then .ok n else refuse .oversizedInteger
    | none => refuse .fractionalInteger
  | .float _ => refuse .notFinite
  | .string s => integer s
  | _ => refuse .notInteger

def readOptionalInteger : Value → Read (Option Int)
  | .null => .ok none
  | v => some <$> readInteger v

/-- Reads a value of an enumeration by its name. -/
def readListed {α : Type} (all : List α) (name : α → String) : Value → Read α
  | .string s => (all.find? (name · == s)).elim (refuse .notListed) .ok
  | _ => refuse .notListed

def diagnostic (t : Table) : Read Diagnostic :=
  let place := Read.both Prod.mk (optional "line" none readOptionalInteger t)
    (optional "column" none readOptionalInteger t)
  let kind := Read.both Prod.mk (required "severity" (readListed Severity.all Severity.name) t)
    (required "tool" readText t)
  let texts := Read.both Prod.mk (required "file" readText t) (required "message" readText t)
  Read.both (fun (file, message) ((line, column), severity, tool) =>
    { file, line, column, severity, message, tool })
    texts (Read.both Prod.mk place kind)

def outcome (t : Table) : Read Outcome :=
  let texts := Read.both Prod.mk (optional "stdout" "" readText t)
    (optional "stderr" "" readText t)
  let ends := Read.both Prod.mk (required "kind" (readListed Pass.all Pass.name) t)
    (required "returncode" readInteger t)
  Read.both (fun (pass, status) (stdout, stderr) => { pass, status, stdout, stderr }) ends texts

end TriplePass.Record
