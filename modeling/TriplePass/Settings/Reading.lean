import TriplePass.Settings.Basic
import TriplePass.Value

/-! # Reading settings from values

Every field reads its values by its shape: text must be text, sequences must be arrays, and a flag
may also be a number equal to 0 or 1 or one of the usual words in any case. All faults of a table
are reported together, each with its location; settings change only if there is none.
-/
namespace TriplePass

inductive Locator where
  | key (name : String)
  | index (i : Nat)
  deriving DecidableEq, Repr

/-- Why a value is refused. -/
inductive Refusal where
  | notText
  | notPath
  | notSequence
  | notFlag
  | unreadableFlag
  | notTable
  | notInteger
  | unreadableInteger
  | fractionalInteger
  | oversizedInteger
  | notFinite
  | notListed
  | missing
  | unknownField
  | unknownAttribute
  deriving DecidableEq, Repr

structure Fault where
  location : List Locator
  refusal : Refusal
  deriving DecidableEq, Repr

/-- A value read, or all the faults found in it. -/
abbrev Read (α : Type) := Except (List Fault) α

def refuse {α : Type} (r : Refusal) : Read α :=
  .error [⟨[], r⟩]

/-- The same faults, seen from one level further out. -/
def Read.within {α : Type} (l : Locator) : Read α → Read α
  | .ok a => .ok a
  | .error faults => .error (faults.map fun f => { f with location := l :: f.location })

/-- Both values, or the faults of both. -/
def Read.both {α β γ : Type} (combine : α → β → γ) : Read α → Read β → Read γ
  | .ok a, .ok b => .ok (combine a b)
  | .ok _, .error faults => .error faults
  | .error faults, .ok _ => .error faults
  | .error faults, .error more => .error (faults ++ more)

/-- Reads every item, counted from `i`. -/
def readItems {α : Type} (item : Value → Read α) : (i : Nat) → List Value → Read (List α)
  | _, [] => .ok []
  | i, v :: rest =>
    Read.both List.cons ((item v).within (.index i)) (readItems item (i + 1) rest)

def readEntries {α : Type} (item : Value → Read α) : Table → Read (Dictionary α)
  | [] => .ok []
  | (name, v) :: rest =>
    Read.both (fun a more => (name, a) :: more) ((item v).within (.key name))
      (readEntries item rest)

def readText : Value → Read String
  | .string s => .ok s
  | _ => refuse .notText

def readPath : Value → Read Path
  | .string s => .ok (Path.ofString s)
  | _ => refuse .notPath

def trueWords : List String := ["1", "on", "t", "true", "y", "yes"]
def falseWords : List String := ["0", "off", "f", "false", "n", "no"]

/-- The text in lower case. ASCII is enough: no other letter has the lower case of a letter that
occurs in a word for a truth value. -/
def lowered (s : String) : String :=
  String.ofList (s.toList.map Char.toLower)

def flagOfInt (n : Int) : Read Bool :=
  if n = 0 then .ok false else if n = 1 then .ok true else refuse .unreadableFlag

/-- The integers of 64 bits. -/
def isWord (n : Int) : Bool :=
  -(Nat.pow 2 63 : Int) ≤ n && n < Nat.pow 2 63

/-- The whole numbers that a floating-point number can be taken for; the least integer of 64 bits
is not among them. -/
def isSafeWord (n : Int) : Bool :=
  -(Nat.pow 2 63 : Int) < n && n < Nat.pow 2 63

/-- Numbers beyond 64 bits are no flags at all. -/
def readFlag : Value → Read Bool
  | .boolean b => .ok b
  | .integer n => if isWord n then flagOfInt n else refuse .notFlag
  | .float x =>
    match x.toInt?.filter isSafeWord with
    | some n => flagOfInt n
    | none => refuse .notFlag
  | .string s =>
    if trueWords.contains (lowered s) then .ok true
    else if falseWords.contains (lowered s) then .ok false
    else refuse .unreadableFlag
  | _ => refuse .notFlag

def readSequence {α : Type} (item : Value → Read α) : Value → Read (List α)
  | .array items => readItems item 0 items
  | _ => refuse .notSequence

def Shape.read : Shape → Value → Read Setting
  | .texts, v => .texts <$> readSequence readText v
  | .paths, v => .paths <$> readSequence readPath v
  | .text, v => .text <$> readText v
  | .optionalText, .null => .ok (.optionalText none)
  | .optionalText, v => (fun s => .optionalText (some s)) <$> readText v
  | .flag, v => .flag <$> readFlag v
  | .bindings, .table entries => .bindings <$> readEntries readText entries
  | .bindings, _ => refuse .notTable

def Field.read (f : Field) (v : Value) : Read Setting :=
  (f.shape.read v).within (.key f.name)

/-- One entry of a table, as the field it names and the setting it gives. -/
def readEntry (unknown : Refusal) (name : String) (v : Value) : Read (Field × Setting) :=
  match Field.named? name with
  | some f => (fun x => (f, x)) <$> f.read v
  | none => .error [⟨[.key name], unknown⟩]

def readTable : Table → Read (List (Field × Setting))
  | [] => .ok []
  | (name, v) :: rest => Read.both List.cons (readEntry .unknownField name v) (readTable rest)

namespace Settings

def putAll (s : Settings) (changes : List (Field × Setting)) : Settings :=
  changes.foldl (fun s c => s.put c.1 c.2) s

/-- The settings with a table of values on top. -/
def update (s : Settings) (data : Table) : Read Settings :=
  s.putAll <$> readTable data

/-- Names that start with an underscore lie outside the settings: any value is accepted for them,
and no setting changes. -/
def isPrivateName (name : String) : Bool :=
  Text.startsWith name "_"

/-- The settings with one field set, which is given by its name. -/
def assign (s : Settings) (name : String) (v : Value) : Read Settings :=
  if isPrivateName name then .ok s
  else (fun c => s.put c.1 c.2) <$> readEntry .unknownAttribute name v

end Settings
end TriplePass
