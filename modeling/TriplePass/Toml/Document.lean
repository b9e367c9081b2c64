import TriplePass.Toml.Scalar
import TriplePass.Toml.Section
import TriplePass.Toml.Text

/-! # Documents

A document is read statement by statement: a key with its value, the header of a table, or the
header of an item of an array of tables; each ends its line. Both carriage return and line feed
together count as a line feed before anything is read.
-/
namespace TriplePass.Toml

/-- Blanks, line feeds and comments between the items of an array. -/
def skipFiller : (fuel : Nat) → Scan Unit
  | 0 => .malformed
  | fuel + 1 => do
    .skipWhile isSpaceOrNewline
    if (← .peek) = some '#' then skipComment; skipFiller fuel

def filler : Scan Unit := do
  skipFiller ((← get).length + 1)

/-- The items of an array up to its closing bracket. -/
def itemsRest (item : Scan Value) : (fuel : Nat) → List Value → Scan (List Value)
  | 0, _ => .malformed
  | fuel + 1, items => do
    filler
    if (← .peek) = some ']' then .skip 1; return items.reverse
    let items := (← item) :: items
    filler
    match ← .peek with
    | some ']' => .skip 1; return items.reverse
    | some ',' => .skip 1; itemsRest item fuel items
    | _ => .malformed

def keyValue (item : Scan Value) : Scan (List String × Value) := do
  let path ← key
  .expect '='
  skipSpace
  return (path, ← item)

/-- The entries of an inline table up to its closing brace; there is one after every comma. -/
def inlineRest (item : Scan Value) : (fuel : Nat) → Nodes → Scan Table
  | 0, _ => .malformed
  | fuel + 1, entries => do
    skipSpace
    let (path, v) ← keyValue item
    match setDotted v path entries with
    | none => .malformed
    | some entries =>
      skipSpace
      match ← .peek with
      | some '}' => .skip 1; return Node.tableOf entries
      | some ',' => .skip 1; inlineRest item fuel entries
      | _ => .malformed

def inlineTable (item : Scan Value) : Scan Table := do
  skipSpace
  if (← .peek) = some '}' then .skip 1; return []
  inlineRest item ((← get).length + 1) []

/-- A value nested at most `depth` deep. -/
def value : (depth : Nat) → Scan Value
  | 0 => .malformed
  | depth + 1 => do
    match ← .peek with
    | some '"' => return .string (String.ofList (← string))
    | some '\'' => return .string (String.ofList (← string))
    | some '[' =>
      .skip 1
      return .array (← itemsRest (value depth) ((← get).length + 1) [])
    | some '{' => .skip 1; return .table (← inlineTable (value depth))
    | _ =>
      if ← .looksAt ['t', 'r', 'u', 'e'] then .skip 4; return .boolean true
      else if ← .looksAt ['f', 'a', 'l', 's', 'e'] then .skip 5; return .boolean false
      else scalar

/-- What has been read: the header of the current section, and the tables so far. -/
structure Reading where
  header : List String := []
  entries : Nodes := []

def orMalformed {α : Type} : Option α → Scan α
  | some a => pure a
  | none => .malformed

def header (r : Reading) : Scan Reading := do
  let item ← .looksAt ['[', '[']
  .skip (if item then 2 else 1)
  skipSpace
  let path ← key
  let entries ← orMalformed (if item then openItem path r.entries else openTable path r.entries)
  .expect ']'
  if item then .expect ']'
  return ⟨path, entries⟩

def statement (r : Reading) : Scan Reading := do
  match ← .peek with
  | some '[' => header r
  | some '#' => return r
  | some c =>
    if startsKey c then
      let (path, v) ← keyValue (value ((← get).length + 1))
      return { r with entries := ← orMalformed (setIn r.header path v r.entries) }
    else if c = '\n' then return r
    else .malformed
  | none => return r

def statements : (fuel : Nat) → Reading → Scan Reading
  | 0, _ => .malformed
  | fuel + 1, r => do
    skipSpace
    let r ← statement r
    skipSpace
    skipComment
    match ← .peek with
    | none => return r
    | some '\n' => .skip 1; statements fuel r
    | _ => .malformed

/-- The text with every carriage return in front of a line feed left out. -/
def joinReturns : List Char → List Char
  | '\r' :: '\n' :: cs => '\n' :: joinReturns cs
  | c :: cs => c :: joinReturns cs
  | [] => []

/-- The table that a document describes. -/
def read (text : List Char) : Except Fault Table := do
  let s := joinReturns text
  let (r, _) ← statements (s.length + 1) {} s
  return Node.tableOf r.entries

end TriplePass.Toml
