import TriplePass.Toml.Scan

/-! # Strings and keys

A basic string stands in double quotes and may hold escapes; a literal string stands in single
quotes and may not. Three quotes open a string of several lines, whose first line feed does not
count and which may end in one or two further quotes of its own. A key is a sequence of bare or
quoted parts joined by dots.
-/
namespace TriplePass.Toml

def hexEscape (digits : Nat) : Scan (List Char) := do
  let n := ofDigits 16 (← .exactly digits isHexDigit)
  if n < 0xD800 ∨ (0xDFFF < n ∧ n ≤ 0x10FFFF) then return [Char.ofNat n] else .malformed

/-- The character that a backslash and this one stand for. -/
def simpleEscape? : Char → Option Char
  | 'b' => some '\x08'
  | 't' => some '\t'
  | 'n' => some '\n'
  | 'f' => some '\x0c'
  | 'r' => some '\r'
  | '"' => some '"'
  | '\\' => some '\\'
  | _ => none

/-- A backslash at the end of a line of a long string joins it to the next line that is not
blank. -/
def joinLines : Scan (List Char) := do
  skipSpace
  match ← .peek with
  | none => return []
  | some '\n' => .skipWhile isSpaceOrNewline; return []
  | _ => .malformed

/-- What stands for the rest of an escape, the backslash already taken. -/
def escapeText (long : Bool) : Scan (List Char) := do
  match ← .peek with
  | some 'u' => .skip 1; hexEscape 4
  | some 'U' => .skip 1; hexEscape 8
  | some c =>
    if long && isSpaceOrNewline c then joinLines
    else
      match simpleEscape? c with
      | some d => .skip 1; return [d]
      | none => .malformed
  | none => .malformed

/-- The rest of a basic string, closing quotes included; the text so far is held last first. -/
def basicRest (long : Bool) : (fuel : Nat) → List Char → Scan (List Char)
  | 0, _ => .malformed
  | fuel + 1, text => do
    match ← .peek with
    | none => .malformed
    | some '"' =>
      if !long then .skip 1; return text.reverse
      else if ← .looksAt ['"', '"', '"'] then .skip 3; return text.reverse
      else .skip 1; basicRest long fuel ('"' :: text)
    | some '\\' =>
      .skip 1
      basicRest long fuel ((← escapeText long).reverse ++ text)
    | some c =>
      if isForbidden c && !(long && c == '\n') then .malformed
      else .skip 1; basicRest long fuel (c :: text)

def basic (long : Bool) : Scan (List Char) := do
  basicRest long ((← get).length + 1) []

/-- The text up to a closing mark, the mark taken too. -/
def upTo (mark : List Char) (fine : Char → Bool) : (fuel : Nat) → List Char → Scan (List Char)
  | 0, _ => .malformed
  | fuel + 1, text => do
    if ← .looksAt mark then .skip mark.length; return text.reverse
    match ← .peek with
    | some c => if fine c then .skip 1; upTo mark fine fuel (c :: text) else .malformed
    | none => .malformed

def literal : Scan (List Char) := do
  upTo ['\''] (!isForbidden ·) ((← get).length + 1) []

def longLiteral : Scan (List Char) := do
  upTo ['\'', '\'', '\''] (fun c => !isForbidden c || c == '\n') ((← get).length + 1) []

/-- Up to two more quotes right behind the closing ones belong to the text. -/
def trailingQuotes (quote : Char) (text : List Char) : Scan (List Char) := do
  if ← .looksAt [quote, quote] then .skip 2; return text ++ [quote, quote]
  else if ← .looksAt [quote] then .skip 1; return text ++ [quote]
  else return text

def skipNewline : Scan Unit := do
  if (← .peek) = some '\n' then .skip 1

/-- A string, from its opening quote on. -/
def string : Scan (List Char) := do
  if ← .looksAt ['"', '"', '"'] then
    .skip 3; skipNewline
    trailingQuotes '"' (← basic true)
  else if ← .looksAt ['\'', '\'', '\''] then
    .skip 3; skipNewline
    trailingQuotes '\'' (← longLiteral)
  else if ← .looksAt ['"'] then .skip 1; basic false
  else .expect '\''; literal

def isBareKey (c : Char) : Bool :=
  c.isAlphanum || c == '-' || c == '_'

def startsKey (c : Char) : Bool :=
  isBareKey c || c == '"' || c == '\''

def keyPart : Scan String := do
  match ← .peek with
  | some '"' => .skip 1; return String.ofList (← basic false)
  | some '\'' => .skip 1; return String.ofList (← literal)
  | some c => if isBareKey c then return String.ofList (← .takeWhile isBareKey) else .malformed
  | none => .malformed

def keyRest : (fuel : Nat) → Scan (List String)
  | 0 => .malformed
  | fuel + 1 => do
    skipSpace
    if (← .peek) = some '.' then
      .skip 1; skipSpace
      let part ← keyPart
      return part :: (← keyRest fuel)
    else return []

def key : Scan (List String) := do
  let part ← keyPart
  return part :: (← keyRest ((← get).length + 1))

end TriplePass.Toml
