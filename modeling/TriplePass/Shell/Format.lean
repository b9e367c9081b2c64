import TriplePass.Shell.Decimal
import TriplePass.Shell.Flags

/-! # Formatted output

A format is written once for every row of arguments that its conversions consume, and at least
once. Escapes stand for a byte by name or by up to three octal digits. An argument that is no
number is reported and counts as far as it is one.
-/
namespace TriplePass.Shell.Format

/-! ## Escapes -/

def isOctalDigit (c : Char) : Bool :=
  '0' ≤ c && c ≤ '7'

def octal (digits : Octets) : Char :=
  Char.ofNat (Arithmetic.digitsValue 8 digits % 256)

def namedEscape? : Char → Option Char
  | 'a' => some '\x07'
  | 'b' => some '\x08'
  | 'e' => some '\x1b'
  | 'f' => some '\x0c'
  | 'n' => some '\n'
  | 'r' => some '\r'
  | 't' => some '\t'
  | 'v' => some '\x0b'
  | '\\' => some '\\'
  | _ => none

/-- What a backslash and the text behind it stand for, and how many characters of that text. -/
def escape (s : Octets) : Octets × Nat :=
  let digits := (s.take 3).takeWhile isOctalDigit
  if !digits.isEmpty then ([octal digits], digits.length)
  else
    match s with
    | [] => (['\\'], 0)
    | c :: _ =>
      match namedEscape? c with
      | some e => ([e], 1)
      | none => (['\\'], 0)

/-- An argument with its escapes resolved, in which octal digits may follow a zero, and whether
all output ends there. -/
def unescaped : (skip : Nat) → Octets → Octets × Bool
  | _, [] => ([], false)
  | skip + 1, _ :: cs => unescaped skip cs
  | 0, c :: cs =>
    if c = '\\' then
      match cs with
      | 'c' :: _ => ([], true)
      | '0' :: rest =>
        let digits := (rest.take 3).takeWhile isOctalDigit
        (unescaped (digits.length + 1) cs).map (octal digits :: ·) id
      | _ =>
        let (text, n) := escape cs
        (unescaped n cs).map (text ++ ·) id
    else (unescaped 0 cs).map (c :: ·) id

/-! ## Conversions -/

structure Conversion where
  left : Bool
  zero : Bool
  plus : Bool
  space : Bool
  alternate : Bool
  width : Nat
  precision : Option Nat
  letter : Char

/-- A text filled up to the width with blanks. -/
def Conversion.pad (k : Conversion) (text : Octets) : Octets :=
  let fill := List.replicate (k.width - text.length) ' '
  if k.left then text ++ fill else fill ++ text

/-- A number whose sign or mark stands in front of the zeros that fill it up. -/
def Conversion.padNumber (k : Conversion) (zeros : Bool) (mark digits : Octets) : Octets :=
  if k.zero && zeros && !k.left then
    mark ++ List.replicate (k.width - mark.length - digits.length) '0' ++ digits
  else k.pad (mark ++ digits)

def Conversion.sign (k : Conversion) (negative : Bool) : Octets :=
  if negative then ['-'] else if k.plus then ['+'] else if k.space then [' '] else []

/-- The digits of an integer, as many as the precision asks for. -/
def Conversion.digits (k : Conversion) (base n : Nat) : Octets :=
  match k.precision with
  | some 0 => if n = 0 then [] else Nat.toDigits base n
  | some p => Decimal.padded p (Nat.toDigits base n)
  | none => Nat.toDigits base n

def Conversion.signed (k : Conversion) (n : Int) : Octets :=
  k.padNumber k.precision.isNone (k.sign (n < 0)) (k.digits 10 n.natAbs)

def Conversion.unsigned (k : Conversion) (n : Nat) : Octets :=
  let digits :=
    match k.letter with
    | 'o' =>
      let digits := k.digits 8 n
      if k.alternate && digits.head? ≠ some '0' then '0' :: digits else digits
    | 'x' => k.digits 16 n
    | 'X' => (k.digits 16 n).map Char.toUpper
    | _ => k.digits 10 n
  let mark := if k.alternate && n ≠ 0 && k.letter.toLower = 'x' then ['0', k.letter] else []
  k.padNumber k.precision.isNone mark digits

def Conversion.fraction (k : Conversion) (v : Binary64) : Octets :=
  let text := Decimal.text k.letter.toLower k.alternate k.precision v
  let text := if k.letter.isUpper then text.map Char.toUpper else text
  let base := if k.letter.toLower = 'a' && Decimal.isFinite v then 2 else 0
  k.padNumber (Decimal.isFinite v) (k.sign (Decimal.isNegative v) ++ text.take base)
    (text.drop base)

/-! ## Writing -/

inductive Stop where
  /-- Nothing more is to be written. -/
  | finished
  | fault (text : Octets)
  deriving DecidableEq, Repr

/-- What has been written, last text first, what is to be reported, last report first, and the
arguments that are left. -/
structure Sheet where
  written : List Octets := []
  reports : List Octets := []
  arguments : List Octets

abbrev Writer := EStateM Stop Sheet

def put (text : Octets) : Writer Unit :=
  modify fun s => { s with written := text :: s.written }

def report (argument : Octets) (text : String) : Writer Unit :=
  modify fun s => { s with reports := (argument ++ ": ".toList ++ text.toList) :: s.reports }

def next? : Writer (Option Octets) := do
  let s ← get
  set { s with arguments := s.arguments.tail }
  return s.arguments.head?

def noRange : String := "Numerical result out of range"

/-- Reports an argument of which a rest is left over. -/
def checkRest (argument rest : Octets) (outOfRange : Bool) : Writer Unit := do
  if !rest.isEmpty then
    report argument (if rest.length = argument.length then "expected numeric value"
      else "not completely converted")
  else if outOfRange then report argument noRange

/-- The code of the character behind a quote. -/
def quotedCode? : Octets → Option Nat
  | '"' :: rest | '\'' :: rest => some ((rest.head?.map Char.toNat).getD 0)
  | _ => none

def integer (isUnsigned : Bool) : Writer Int := do
  match ← next? with
  | none => return 0
  | some argument =>
    match quotedCode? argument with
    | some n => return n
    | none =>
      match Arithmetic.leadingNumber? .told argument with
      | none =>
        checkRest argument argument false
        return 0
      | some (n, rest) =>
        let fits := if isUnsigned then n.natAbs < Nat.pow 2 64 else Arithmetic.clamp n = n
        checkRest argument rest !fits
        if isUnsigned then return (if fits then n % Nat.pow 2 64 else Nat.pow 2 64 - 1)
        else return Arithmetic.clamp n

def fraction : Writer Binary64 := do
  match ← next? with
  | none => return .finite false 0 0
  | some argument =>
    match quotedCode? argument with
    | some n => return Binary64.ofDecimal false n 0
    | none =>
      match Decimal.read? argument with
      | none =>
        checkRest argument argument false
        return .finite false 0 0
      | some r =>
        checkRest argument r.rest r.outOfRange
        return r.value

def write (k : Conversion) (shown : Octets) : Writer Unit := do
  let cut := fun (text : Octets) => (k.precision.map text.take).getD text
  match k.letter with
  | 's' => put (k.pad (cut ((← next?).getD [])))
  | 'b' =>
    let (text, ended) := unescaped 0 ((← next?).getD [])
    put (k.pad (cut text))
    if ended then throw .finished
  | 'c' => put (k.pad [((← next?).bind List.head?).getD '\x00'])
  | 'd' | 'i' => put (k.signed (← integer false))
  | 'o' | 'u' | 'x' | 'X' => put (k.unsigned (← integer true).toNat)
  | c =>
    if "aAeEfFgG".toList.contains c then put (k.fraction (← fraction))
    else throw (.fault (shown ++ ": invalid directive".toList))

/-- The 32 lowest bits of an integer as a signed one. -/
def lowHalf (n : Int) : Int :=
  (n + Nat.pow 2 31) % Nat.pow 2 32 - Nat.pow 2 31

/-- A width or precision that stands in the format or is taken from the arguments, and the rest. -/
def measure (s : Octets) : Writer (Option Int × Octets) := do
  match s with
  | '*' :: rest => return (some (lowHalf (← integer false)), rest)
  | _ =>
    let run := s.takeWhile Char.isDigit
    return (if run.isEmpty then none else some (Arithmetic.digitsValue 10 run), s.drop run.length)

def maxMeasure : Nat := 2147483647

/-- Writes the conversion behind a percent sign; the rest of the format is left. -/
def conversion (s : Octets) : Writer Octets := do
  let signs := s.takeWhile fun c => "#-+ 0".toList.contains c
  let (width, rest) ← measure (s.drop signs.length)
  let (precision, rest) ←
    match rest with
    | '.' :: rest => do
      let (n, rest) ← measure rest
      pure (some (n.getD 0), rest)
    | _ => pure (none, rest)
  match rest with
  | [] => throw (.fault "missing format character".toList)
  | letter :: rest =>
    let width := width.getD 0
    let k : Conversion :=
      { left := signs.contains '-' || width < 0
        zero := signs.contains '0'
        plus := signs.contains '+'
        space := signs.contains ' '
        alternate := signs.contains '#'
        width := width.natAbs
        precision := (precision.filter (0 ≤ ·)).map Int.toNat
        letter }
    let shown := '%' :: s.take (s.length - rest.length)
    if maxMeasure < k.width || k.precision.any (maxMeasure < ·) then
      throw (.fault "xvsnprintf failed".toList)
    write k shown
    return rest

/-- Writes the format once. -/
def once : (fuel : Nat) → Octets → Writer Unit
  | 0, _ => return
  | _ + 1, [] => return
  | fuel + 1, '\\' :: rest => do
    let (text, n) := escape rest
    put text
    once fuel (rest.drop n)
  | fuel + 1, '%' :: '%' :: rest => do
    put ['%']
    once fuel rest
  | fuel + 1, '%' :: rest => do once fuel (← conversion rest)
  | fuel + 1, c :: rest => do
    put [c]
    once fuel rest

/-- Writes the format as long as it consumes arguments. -/
def rows (format : Octets) : (fuel : Nat) → Writer Unit
  | 0 => return
  | fuel + 1 => do
    let before := (← get).arguments.length
    once (format.length + 1) format
    let left := (← get).arguments.length
    if left ≠ 0 && left < before then rows format fuel

/-- Writes a format with its arguments. What is to be reported comes first. -/
def print (words : List Octets) : Action Unit := do
  let (_, words) ← flags "" words
  match words with
  | [] => fail "usage: printf format [arg ...]".toList
  | format :: arguments =>
    let (sheet, fault) :=
      match rows format (arguments.length + 1) { arguments } with
      | .ok _ sheet | .error .finished sheet => (sheet, none)
      | .error (.fault text) sheet => (sheet, some text)
    sheet.reports.reverse.forM warn
    fault.forM warn
    say 1 sheet.written.reverse.flatten
    if fault.isSome then throw (.failed 2)
    else setStatus (if sheet.reports.isEmpty then 0 else 1)

/-- Writes words with blanks between them; a word may end all output. -/
def echo (words : List Octets) : Action Unit := do
  let (words, ending) :=
    match words with
    | ['-', 'n'] :: rest => (rest, [])
    | ws => (ws, ['\n'])
  let (text, ended) := unescaped 0 (State.joined words)
  say 1 (if ended then text else text ++ ending)
  setStatus 0

end TriplePass.Shell.Format
